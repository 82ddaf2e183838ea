import PostgresProtobuf.Foundation.WireFormat

/-! # Field headers

`FieldInfo` is what the scanner knows of a field before it reads a payload. Its
value is a union whose members share their low bytes, so a 32-bit write leaves
the upper half of the old contents in place. -/

namespace PostgresProtobuf

open Foundation

abbrev StdString := Bytes

def literal (text : String) : StdString := text.toList.map Char.toUInt8

def unsignedToString (value : Nat) : StdString :=
  (Nat.toDigits 10 value).map Char.toUInt8

def signedToString (value : Int) : StdString :=
  if value < 0 then literal "-" ++ unsignedToString value.natAbs
  else unsignedToString value.natAbs

/-- What the code throws. `assertionFailed` is an abort of the backend, and
`outOfFuel` is the model's own: a loop of the model ran out of turns. -/
inductive Exception
  | badProto (message : StdString)
  | badQuery (message : StdString)
  | recursionDepthExceeded
  | limitReached
  | assertionFailed
  | outOfFuel
  deriving DecidableEq, Repr

/-- Code over a mutable world that may throw; the world outlives the exception. -/
abbrev Program (World : Type) := EStateM Exception World

theorem Program.bind_ok {World Value Other : Type} {program : Program World Value}
    {continuation : Value → Program World Other} {world after : World} {value : Value}
    (runs : program world = .ok value after) :
    (program >>= continuation) world = continuation value after := by
  simp only [bind, EStateM.bind, runs]

theorem Program.bind_error {World Value Other : Type} {program : Program World Value}
    {continuation : Value → Program World Other} {world after : World}
    {exception : Exception} (stops : program world = .error exception after) :
    (program >>= continuation) world = .error exception after := by
  simp only [bind, EStateM.bind, stops]

theorem Program.bind_congr {World Value Other : Type} {program other : Program World Value}
    {continuation : Value → Program World Other} {world start : World}
    (equal : program world = other start) :
    (program >>= continuation) world = (other >>= continuation) start := by
  simp only [bind, EStateM.bind, equal]

/-- The little-endian union `FieldInfo::Value`. -/
structure FieldInfo.Value where
  bits : UInt64
  deriving DecidableEq, Repr

namespace FieldInfo.Value

def asUInt64 (value : Value) : UInt64 := value.bits

def asUInt32 (value : Value) : UInt32 := value.bits.toUInt32

def asSize (value : Value) : Int := value.asUInt32.toBitVec.toInt

def upper (value : Value) : Nat := value.bits.toNat / 2 ^ 32

def setUInt64 (_ : Value) (written : UInt64) : Value := ⟨written⟩

def setUInt32 (value : Value) (written : UInt32) : Value :=
  ⟨UInt64.ofNat (value.upper * 2 ^ 32 + written.toNat)⟩

def setSize (value : Value) (written : Int) : Value :=
  value.setUInt32 (UInt32.ofInt written)

theorem toNat_bits_setUInt32 (value : Value) (written : UInt32) :
    (value.setUInt32 written).bits.toNat =
      value.upper * 2 ^ 32 + written.toNat := by
  have whole := value.bits.toNat_lt
  have part := written.toNat_lt
  simp only [setUInt32, upper, UInt64.toNat_ofNat']
  omega

@[simp] theorem asUInt64_setUInt64 (value : Value) (written : UInt64) :
    (value.setUInt64 written).asUInt64 = written := rfl

@[simp] theorem asUInt32_setUInt32 (value : Value) (written : UInt32) :
    (value.setUInt32 written).asUInt32 = written := by
  apply UInt32.toNat_inj.mp
  have part := written.toNat_lt
  simp only [asUInt32, UInt64.toNat_toUInt32, toNat_bits_setUInt32]
  omega

@[simp] theorem upper_setUInt32 (value : Value) (written : UInt32) :
    (value.setUInt32 written).upper = value.upper := by
  have part := written.toNat_lt
  rw [upper, toNat_bits_setUInt32]
  omega

@[simp] theorem setUInt32_setUInt32 (value : Value) (first second : UInt32) :
    (value.setUInt32 first).setUInt32 second = value.setUInt32 second := by
  rw [setUInt32, upper_setUInt32]
  rfl

theorem asSize_setSize (value : Value) {size : Nat} (fits : size < 2 ^ 31) :
    (value.setSize size).asSize = size := by
  simp only [asSize, setSize, asUInt32_setUInt32]
  have unsigned : (UInt32.ofInt (size : Int)).toBitVec.toNat = size := by
    simp [UInt32.ofInt, UInt32.toNat_toBitVec, UInt32.toNat_ofNat']
    omega
  rw [BitVec.toInt_eq_toNat_of_lt (by rw [unsigned]; omega), unsigned]

end FieldInfo.Value

structure FieldInfo where
  number : Int
  wireType : Nat
  value : FieldInfo.Value
  deriving DecidableEq, Repr

namespace FieldInfo

/-- `FieldInfo::ValueEquals` compares the member that the wire type selects. -/
def valueEquals (this that : FieldInfo) : Bool :=
  if this.wireType ≠ that.wireType then
    false
  else
    match this.wireType with
    | 0 => this.value.asUInt64 == that.value.asUInt64
    | 1 => this.value.asUInt64 == that.value.asUInt64
    | 2 => this.value.asSize == that.value.asSize
    | 5 => this.value.asUInt32 == that.value.asUInt32
    | _ => false

def zero : FieldInfo := ⟨0, 0, ⟨0⟩⟩

end FieldInfo

end PostgresProtobuf
