import PostgresProtobuf.Foundation.WireFormat

/-! # The coded input stream

The protobuf library's `CodedInputStream` is not part of the repository. The
operations the traverser calls are a parameter, and what it relies on is stated
against the bytes that are left before the current limit. -/

namespace PostgresProtobuf

open Foundation

/-- The operations of `pb::io::CodedInputStream` used by the traverser. A read
that returns `false` is `none`. -/
class CodedInputStream (Stream : Type) where
  /-- The token handed from `PushLimit` to `PopLimit`. -/
  Limit : Type
  recursionLimit : Nat
  ofBytes : Bytes → Stream
  readTag : Stream → UInt32 × Stream
  consumedEntireMessage : Stream → Bool
  readVarint64 : Stream → Option (UInt64 × Stream)
  readLittleEndian64 : Stream → Option (UInt64 × Stream)
  readLittleEndian32 : Stream → Option (UInt32 × Stream)
  readVarintSizeAsInt : Stream → Option (Nat × Stream)
  skip : Int → Stream → Bool × Stream
  readString : Int → Stream → Option (Bytes × Stream)
  pushLimit : Int → Stream → Limit × Stream
  popLimit : Limit → Stream → Stream
  bytesUntilLimit : Stream → Int
  incrementRecursionDepthAndPushLimit : Int → Stream → (Limit × Int) × Stream
  decrementRecursionDepthAndPopLimit : Limit → Stream → Stream

/-- What can be observed of a stream. Positions count from its first byte. -/
structure StreamView where
  unread : Bytes
  position : Nat
  limit : Nat
  recursionBudget : Int

namespace StreamView

def left (view : StreamView) : Bytes :=
  view.unread.take (view.limit - view.position)

def Valid (view : StreamView) : Prop :=
  view.position ≤ view.limit ∧ view.limit ≤ view.position + view.unread.length

def advance (view : StreamView) (count : Nat) : StreamView :=
  { view with
    unread := view.unread.drop count
    position := view.position + count }

theorem left_length {view : StreamView} (valid : view.Valid) :
    view.left.length = view.limit - view.position := by
  simp only [left, List.length_take]
  have := valid.2
  omega

@[simp] theorem advance_zero (view : StreamView) : view.advance 0 = view := by
  simp [advance]

theorem left_advance (view : StreamView) (count : Nat) :
    (view.advance count).left = view.left.drop count := by
  simp only [left, advance, List.drop_take]
  congr 1
  omega

theorem advance_advance (view : StreamView) (first second : Nat) :
    (view.advance first).advance second = view.advance (first + second) := by
  simp [advance, List.drop_drop, Nat.add_assoc]

end StreamView

/-- The documented behaviour of the stream. Reads and skips stop at the limit, a
pushed limit never reaches past the enclosing one, and `ReadTag` returns zero
with `ConsumedEntireMessage` exactly when it starts at the limit. -/
class LawfulCodedInputStream (Stream : Type) [CodedInputStream Stream] where
  view : Stream → StreamView
  limitPosition : CodedInputStream.Limit Stream → Nat
  recursionLimit_pos : 0 < CodedInputStream.recursionLimit Stream
  view_valid : ∀ stream, (view stream).Valid
  view_ofBytes : ∀ bytes : Bytes,
    view (CodedInputStream.ofBytes bytes) =
      ⟨bytes, 0, bytes.length, CodedInputStream.recursionLimit Stream⟩
  readTag_of_left_eq_nil : ∀ stream, (view stream).left = [] →
    (CodedInputStream.readTag stream).1 = 0 ∧
      CodedInputStream.consumedEntireMessage
        (CodedInputStream.readTag stream).2 = true ∧
      view (CodedInputStream.readTag stream).2 = view stream
  readTag_of_decodeTag_eq_some : ∀ stream tag rest,
    decodeTag (view stream).left = some (tag, rest) →
    (CodedInputStream.readTag stream).1.toNat = tag ∧
      view (CodedInputStream.readTag stream).2 =
        (view stream).advance ((view stream).left.length - rest.length)
  readTag_of_decodeTag_eq_none : ∀ stream, (view stream).left ≠ [] →
    decodeTag (view stream).left = none →
    (CodedInputStream.readTag stream).1 = 0 ∧
      CodedInputStream.consumedEntireMessage
        (CodedInputStream.readTag stream).2 = false
  readVarint64_of_some : ∀ stream value rest,
    decodeVarint (view stream).left = some (value, rest) →
    ∃ next, CodedInputStream.readVarint64 stream = some (value, next) ∧
      view next = (view stream).advance ((view stream).left.length - rest.length)
  readVarint64_of_none : ∀ stream, decodeVarint (view stream).left = none →
    CodedInputStream.readVarint64 stream = none
  readLittleEndian64_of_some : ∀ stream value rest,
    decodeFixed 8 (view stream).left = some (value, rest) →
    ∃ next, CodedInputStream.readLittleEndian64 stream =
        some (UInt64.ofNat value, next) ∧
      view next = (view stream).advance ((view stream).left.length - rest.length)
  readLittleEndian64_of_none : ∀ stream, decodeFixed 8 (view stream).left = none →
    CodedInputStream.readLittleEndian64 stream = none
  readLittleEndian32_of_some : ∀ stream value rest,
    decodeFixed 4 (view stream).left = some (value, rest) →
    ∃ next, CodedInputStream.readLittleEndian32 stream =
        some (UInt32.ofNat value, next) ∧
      view next = (view stream).advance ((view stream).left.length - rest.length)
  readLittleEndian32_of_none : ∀ stream, decodeFixed 4 (view stream).left = none →
    CodedInputStream.readLittleEndian32 stream = none
  readVarintSizeAsInt_of_some : ∀ stream value rest,
    decodeSize (view stream).left = some (value, rest) →
    ∃ next, CodedInputStream.readVarintSizeAsInt stream = some (value, next) ∧
      view next = (view stream).advance ((view stream).left.length - rest.length)
  readVarintSizeAsInt_of_none : ∀ stream, decodeSize (view stream).left = none →
    CodedInputStream.readVarintSizeAsInt stream = none
  view_skip : ∀ stream (count : Nat),
    view (CodedInputStream.skip count stream).2 =
      (view stream).advance (min count (view stream).left.length)
  readString_of_le : ∀ stream (count : Nat), count ≤ (view stream).left.length →
    ∃ next, CodedInputStream.readString count stream =
        some ((view stream).left.take count, next) ∧
      view next = (view stream).advance count
  readString_of_lt : ∀ stream (count : Nat), (view stream).left.length < count →
    CodedInputStream.readString count stream = none
  limitPosition_pushLimit : ∀ stream (count : Nat),
    limitPosition (CodedInputStream.pushLimit count stream).1 = (view stream).limit
  view_pushLimit : ∀ stream (count : Nat),
    view (CodedInputStream.pushLimit count stream).2 =
      { view stream with
        limit := min (view stream).limit ((view stream).position + count) }
  view_popLimit : ∀ stream limit, (view stream).limit ≤ limitPosition limit →
    limitPosition limit ≤ (view stream).position + (view stream).unread.length →
    view (CodedInputStream.popLimit limit stream) =
      { view stream with limit := limitPosition limit }
  bytesUntilLimit_eq : ∀ stream,
    CodedInputStream.bytesUntilLimit stream = (view stream).left.length
  limitPosition_incrementRecursionDepth : ∀ stream (count : Nat),
    limitPosition
        (CodedInputStream.incrementRecursionDepthAndPushLimit count stream).1.1 =
      (view stream).limit
  budget_incrementRecursionDepth : ∀ stream (count : Nat),
    (CodedInputStream.incrementRecursionDepthAndPushLimit count stream).1.2 =
      (view stream).recursionBudget - 1
  view_incrementRecursionDepth : ∀ stream (count : Nat),
    view (CodedInputStream.incrementRecursionDepthAndPushLimit count stream).2 =
      { view stream with
        limit := min (view stream).limit ((view stream).position + count)
        recursionBudget := (view stream).recursionBudget - 1 }
  view_decrementRecursionDepth : ∀ stream limit,
    (view stream).limit ≤ limitPosition limit →
    limitPosition limit ≤ (view stream).position + (view stream).unread.length →
    view (CodedInputStream.decrementRecursionDepthAndPopLimit limit stream) =
      { view stream with
        limit := limitPosition limit
        recursionBudget := (view stream).recursionBudget + 1 }

/-! ## A stream over an array -/

/-- A stream over a flat array, as `CodedInputStream(data, size)` makes it. -/
structure ArrayStream where
  view : StreamView
  valid : view.Valid
  legitimateEnd : Bool

namespace ArrayStream

variable (stream : ArrayStream)

def left : Bytes := stream.view.left

def advance (count : Nat) : ArrayStream where
  view := stream.view.advance (min count stream.view.left.length)
  valid := by
    have bounds := stream.valid
    have length := StreamView.left_length bounds
    simp only [StreamView.Valid] at bounds ⊢
    simp only [StreamView.advance, List.length_drop]
    omega
  legitimateEnd := false

def read {Item : Type} (decode : Bytes → Option (Item × Bytes)) :
    Option (Item × ArrayStream) :=
  (decode stream.left).map fun decoded =>
    (decoded.1, stream.advance (stream.left.length - decoded.2.length))

def readTag : UInt32 × ArrayStream :=
  if stream.left.isEmpty then
    (0, { stream with legitimateEnd := true })
  else
    match stream.read decodeTag with
    | some (tag, next) => (UInt32.ofNat tag, next)
    | none => (0, { stream with legitimateEnd := false })

def readString (count : Int) : Option (Bytes × ArrayStream) :=
  if 0 ≤ count ∧ count ≤ stream.left.length then
    some (stream.left.take count.toNat, stream.advance count.toNat)
  else
    none

def skip (count : Int) : Bool × ArrayStream :=
  if count < 0 then (false, stream)
  else (decide (count ≤ stream.left.length), stream.advance count.toNat)

def pushLimit (count : Int) : Nat × ArrayStream :=
  (stream.view.limit,
    { view := { stream.view with
        limit := min stream.view.limit (stream.view.position + count.toNat) }
      valid := by
        have bounds := stream.valid
        simp only [StreamView.Valid] at bounds ⊢
        omega
      legitimateEnd := stream.legitimateEnd })

/-- Limits only come from an enclosing `pushLimit`; others are ignored. -/
def popLimit (limit : Nat) : ArrayStream :=
  if fits : stream.view.limit ≤ limit ∧
      limit ≤ stream.view.position + stream.view.unread.length then
    { view := { stream.view with limit := limit }
      valid := by
        have bounds := stream.valid
        simp only [StreamView.Valid] at bounds ⊢
        omega
      legitimateEnd := false }
  else
    stream

def addBudget (amount : Int) : ArrayStream where
  view := { stream.view with
    recursionBudget := stream.view.recursionBudget + amount }
  valid := stream.valid
  legitimateEnd := stream.legitimateEnd

instance : CodedInputStream ArrayStream where
  Limit := Nat
  recursionLimit := 100
  ofBytes bytes :=
    { view := ⟨bytes, 0, bytes.length, 100⟩
      valid := by simp [StreamView.Valid]
      legitimateEnd := false }
  readTag := readTag
  consumedEntireMessage := legitimateEnd
  readVarint64 stream := stream.read decodeVarint
  readLittleEndian64 stream :=
    (stream.read (decodeFixed 8)).map fun read => (UInt64.ofNat read.1, read.2)
  readLittleEndian32 stream :=
    (stream.read (decodeFixed 4)).map fun read => (UInt32.ofNat read.1, read.2)
  readVarintSizeAsInt stream := stream.read decodeSize
  skip count stream := stream.skip count
  readString count stream := stream.readString count
  pushLimit count stream := stream.pushLimit count
  popLimit limit stream := stream.popLimit limit
  bytesUntilLimit stream := stream.view.limit - stream.view.position
  incrementRecursionDepthAndPushLimit count stream :=
    let pushed := stream.pushLimit count
    ((pushed.1, stream.view.recursionBudget - 1), pushed.2.addBudget (-1))
  decrementRecursionDepthAndPopLimit limit stream :=
    (stream.popLimit limit).addBudget 1

theorem view_advance_of_le {count : Nat} (fits : count ≤ stream.view.left.length) :
    (stream.advance count).view = stream.view.advance count := by
  simp [advance, Nat.min_eq_left fits]

theorem read_of_some {Item : Type} (decode : Bytes → Option (Item × Bytes))
    {item : Item} {rest : Bytes} (decoded : decode stream.left = some (item, rest)) :
    ∃ next, stream.read decode = some (item, next) ∧
      next.view = stream.view.advance (stream.view.left.length - rest.length) := by
  refine ⟨stream.advance (stream.left.length - rest.length),
    by simp only [read, decoded, Option.map_some], ?_⟩
  exact view_advance_of_le stream (Nat.sub_le _ _)

theorem read_of_none {Item : Type} (decode : Bytes → Option (Item × Bytes))
    (decoded : decode stream.left = none) : stream.read decode = none := by
  simp [read, decoded]

theorem readTag_of_left_eq_nil (empty : stream.view.left = []) :
    (CodedInputStream.readTag stream).1 = 0 ∧
      CodedInputStream.consumedEntireMessage (CodedInputStream.readTag stream).2 = true ∧
      (CodedInputStream.readTag stream).2.view = stream.view := by
  have isEmpty : stream.left.isEmpty = true := by simp [left, empty]
  simp [CodedInputStream.readTag, readTag, isEmpty, CodedInputStream.consumedEntireMessage]

theorem readTag_of_decodeTag_eq_some (tag : Nat) (rest : Bytes)
    (decoded : decodeTag stream.view.left = some (tag, rest)) :
    (CodedInputStream.readTag stream).1.toNat = tag ∧
      (CodedInputStream.readTag stream).2.view =
        stream.view.advance (stream.view.left.length - rest.length) := by
  have nonempty : stream.left.isEmpty = false := by
    cases bytes : stream.left with
    | nil =>
        rw [left] at bytes
        simp [bytes, decodeTag, decodeVarint, decodeGroups] at decoded
    | cons byte bytes => rfl
  rcases read_of_some stream decodeTag decoded with ⟨next, read, nextView⟩
  have bound := (decodeTag_eq_some decoded).2.1
  have small : (UInt32.ofNat tag).toNat = tag := by
    rw [UInt32.toNat_ofNat']
    omega
  simp only [CodedInputStream.readTag, readTag, nonempty, read]
  exact ⟨small, nextView⟩

theorem readTag_of_decodeTag_eq_none (nonempty : stream.view.left ≠ [])
    (decoded : decodeTag stream.view.left = none) :
    (CodedInputStream.readTag stream).1 = 0 ∧
      CodedInputStream.consumedEntireMessage (CodedInputStream.readTag stream).2 = false := by
  have notEmpty : stream.left.isEmpty = false := by simpa [left] using nonempty
  simp [CodedInputStream.readTag, readTag, notEmpty, read_of_none stream decodeTag decoded,
    CodedInputStream.consumedEntireMessage]

theorem readVarint64_of_some (value : UInt64) (rest : Bytes)
    (decoded : decodeVarint stream.view.left = some (value, rest)) :
    ∃ next, CodedInputStream.readVarint64 stream = some (value, next) ∧
      next.view = stream.view.advance (stream.view.left.length - rest.length) :=
  read_of_some stream _ decoded

theorem readVarint64_of_none (decoded : decodeVarint stream.view.left = none) :
    CodedInputStream.readVarint64 stream = none :=
  read_of_none stream _ decoded

theorem readLittleEndian64_of_some (value : Nat) (rest : Bytes)
    (decoded : decodeFixed 8 stream.view.left = some (value, rest)) :
    ∃ next, CodedInputStream.readLittleEndian64 stream = some (UInt64.ofNat value, next) ∧
      next.view = stream.view.advance (stream.view.left.length - rest.length) := by
  rcases read_of_some stream (decodeFixed 8) decoded with ⟨next, read, nextView⟩
  exact ⟨next, by simp [CodedInputStream.readLittleEndian64, read], nextView⟩

theorem readLittleEndian64_of_none (decoded : decodeFixed 8 stream.view.left = none) :
    CodedInputStream.readLittleEndian64 stream = none := by
  simp [CodedInputStream.readLittleEndian64, read_of_none stream (decodeFixed 8) decoded]

theorem readLittleEndian32_of_some (value : Nat) (rest : Bytes)
    (decoded : decodeFixed 4 stream.view.left = some (value, rest)) :
    ∃ next, CodedInputStream.readLittleEndian32 stream = some (UInt32.ofNat value, next) ∧
      next.view = stream.view.advance (stream.view.left.length - rest.length) := by
  rcases read_of_some stream (decodeFixed 4) decoded with ⟨next, read, nextView⟩
  exact ⟨next, by simp [CodedInputStream.readLittleEndian32, read], nextView⟩

theorem readLittleEndian32_of_none (decoded : decodeFixed 4 stream.view.left = none) :
    CodedInputStream.readLittleEndian32 stream = none := by
  simp [CodedInputStream.readLittleEndian32, read_of_none stream (decodeFixed 4) decoded]

theorem readVarintSizeAsInt_of_some (value : Nat) (rest : Bytes)
    (decoded : decodeSize stream.view.left = some (value, rest)) :
    ∃ next, CodedInputStream.readVarintSizeAsInt stream = some (value, next) ∧
      next.view = stream.view.advance (stream.view.left.length - rest.length) :=
  read_of_some stream _ decoded

theorem readVarintSizeAsInt_of_none (decoded : decodeSize stream.view.left = none) :
    CodedInputStream.readVarintSizeAsInt stream = none :=
  read_of_none stream _ decoded

theorem view_skip (count : Nat) :
    (CodedInputStream.skip count stream).2.view =
      stream.view.advance (min count stream.view.left.length) := by
  have nonnegative : ¬ ((count : Int) < 0) := by omega
  simp [CodedInputStream.skip, skip, nonnegative, advance]

theorem readString_of_le (count : Nat) (fits : count ≤ stream.view.left.length) :
    ∃ next, CodedInputStream.readString count stream =
        some (stream.view.left.take count, next) ∧
      next.view = stream.view.advance count := by
  refine ⟨stream.advance count, ?_, view_advance_of_le stream fits⟩
  have inRange : (0 : Int) ≤ count ∧ (count : Int) ≤ stream.left.length := by
    simp only [left]
    omega
  simp [CodedInputStream.readString, readString, left] at inRange ⊢
  exact inRange

theorem readString_of_lt (count : Nat) (short : stream.view.left.length < count) :
    CodedInputStream.readString count stream = none := by
  have outOfRange : ¬ ((count : Int) ≤ stream.left.length) := by
    simp only [left]
    omega
  simp [CodedInputStream.readString, readString] at outOfRange ⊢
  exact outOfRange

theorem view_pushLimit (count : Nat) :
    (CodedInputStream.pushLimit count stream).2.view =
      { stream.view with
        limit := min stream.view.limit (stream.view.position + count) } := by
  simp [CodedInputStream.pushLimit, pushLimit]

theorem view_popLimit (limit : Nat) (above : stream.view.limit ≤ limit)
    (below : limit ≤ stream.view.position + stream.view.unread.length) :
    (stream.popLimit limit).view =
      { stream.view with limit := limit } := by
  simp [popLimit, above, below]

theorem bytesUntilLimit_eq :
    CodedInputStream.bytesUntilLimit stream = stream.view.left.length := by
  have bounds := stream.valid
  simp only [StreamView.Valid] at bounds
  simp only [CodedInputStream.bytesUntilLimit, StreamView.left_length stream.valid]
  omega

theorem view_incrementRecursionDepth (count : Nat) :
    (CodedInputStream.incrementRecursionDepthAndPushLimit count stream).2.view =
      { stream.view with
        limit := min stream.view.limit (stream.view.position + count)
        recursionBudget := stream.view.recursionBudget - 1 } := by
  simp [CodedInputStream.incrementRecursionDepthAndPushLimit, pushLimit, addBudget,
    Int.sub_eq_add_neg]

theorem view_decrementRecursionDepth (limit : Nat) (above : stream.view.limit ≤ limit)
    (below : limit ≤ stream.view.position + stream.view.unread.length) :
    ((stream.popLimit limit).addBudget 1).view =
      { stream.view with
        limit := limit
        recursionBudget := stream.view.recursionBudget + 1 } := by
  simp [popLimit, above, below, addBudget]

instance : LawfulCodedInputStream ArrayStream where
  view := view
  limitPosition limit := limit
  recursionLimit_pos := by decide
  view_valid := valid
  view_ofBytes _ := rfl
  readTag_of_left_eq_nil := readTag_of_left_eq_nil
  readTag_of_decodeTag_eq_some := readTag_of_decodeTag_eq_some
  readTag_of_decodeTag_eq_none := readTag_of_decodeTag_eq_none
  readVarint64_of_some := readVarint64_of_some
  readVarint64_of_none := readVarint64_of_none
  readLittleEndian64_of_some := readLittleEndian64_of_some
  readLittleEndian64_of_none := readLittleEndian64_of_none
  readLittleEndian32_of_some := readLittleEndian32_of_some
  readLittleEndian32_of_none := readLittleEndian32_of_none
  readVarintSizeAsInt_of_some := readVarintSizeAsInt_of_some
  readVarintSizeAsInt_of_none := readVarintSizeAsInt_of_none
  view_skip := view_skip
  readString_of_le := readString_of_le
  readString_of_lt := readString_of_lt
  limitPosition_pushLimit _ _ := rfl
  view_pushLimit := view_pushLimit
  view_popLimit := view_popLimit
  bytesUntilLimit_eq := bytesUntilLimit_eq
  limitPosition_incrementRecursionDepth _ _ := rfl
  budget_incrementRecursionDepth _ _ := rfl
  view_incrementRecursionDepth := view_incrementRecursionDepth
  view_decrementRecursionDepth := view_decrementRecursionDepth

end ArrayStream

end PostgresProtobuf
