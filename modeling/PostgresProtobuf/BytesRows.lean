import PostgresProtobuf.PathEvaluation

/-! # Rows of bytes fields

`PrimitiveEmitter::ReadBytes` prints a byte string in the hex format of `bytea`,
and gives every byte from 0x80 on eight digits. -/

namespace PostgresProtobuf

open Foundation

variable {Message : Type}

/-! ## The hex format of `bytea` -/

def hexDigit (char : UInt8) : Option UInt8 :=
  if '0'.toUInt8 ≤ char ∧ char ≤ '9'.toUInt8 then some (char - '0'.toUInt8)
  else if 'A'.toUInt8 ≤ char ∧ char ≤ 'F'.toUInt8 then some (char - 'A'.toUInt8 + 10)
  else if 'a'.toUInt8 ≤ char ∧ char ≤ 'f'.toUInt8 then some (char - 'a'.toUInt8 + 10)
  else none

def isHexBlank (char : UInt8) : Bool :=
  char == ' '.toUInt8 || char == '\n'.toUInt8 || char == '\t'.toUInt8 ||
    char == '\r'.toUInt8

def readHexPairs : Bytes → Option Bytes
  | [] => some []
  | [char] => if isHexBlank char then some [] else none
  | first :: second :: rest =>
      if isHexBlank first then
        readHexPairs (second :: rest)
      else do
        let high ← hexDigit first
        let low ← hexDigit second
        let bytes ← readHexPairs rest
        return (16 * high + low) :: bytes

/-- How Postgres reads a `bytea` in its hex format. -/
def readBytea (text : StdString) : Option Bytes :=
  match text with
  | backslash :: x :: pairs =>
      if backslash = '\\'.toUInt8 ∧ x = 'x'.toUInt8 then readHexPairs pairs else none
  | _ => none

/-- The text is the byte string in hex format, with two digits for each byte. -/
structure HexText (contents : Bytes) (text : StdString) : Prop where
  digits : ∃ pairs, text = literal "\\x" ++ pairs ∧
    ∀ char ∈ pairs, (hexDigit char).isSome = true
  length : text.length = 2 + 2 * contents.length
  reads : readBytea text = some contents

/-! ## The digits of one byte -/

def hexChar (value : Nat) : UInt8 := (Nat.digitChar value).toUpper.toUInt8

/-- What the loop of `ReadBytes` prints for one byte. -/
def byteDigits (byte : UInt8) : StdString := hexadecimal 2 (charToUnsigned byte)

def signDigits (byte : UInt8) : StdString :=
  if byte < 0x80 then [] else literal "FFFFFF"

theorem bytesRow_eq (contents : Bytes) :
    EmitterKind.bytesRow contents =
      literal "\\x" ++ (contents.map byteDigits).flatten := rfl

theorem byteDigits_eq (byte : UInt8) :
    byteDigits byte =
      signDigits byte ++ [hexChar (byte.toNat / 16), hexChar (byte.toNat % 16)] := by
  have all : ∀ number < 256, byteDigits (UInt8.ofNat number) =
      signDigits (UInt8.ofNat number) ++ [hexChar (number / 16), hexChar (number % 16)] := by
    decide +kernel
  have isByte := all byte.toNat byte.toNat_lt
  rwa [UInt8.ofNat_toNat] at isByte

theorem hexDigit_hexChar {value : Nat} (bound : value < 16) :
    hexDigit (hexChar value) = some (UInt8.ofNat value) ∧
      isHexBlank (hexChar value) = false := by
  have all : ∀ value < 16, hexDigit (hexChar value) = some (UInt8.ofNat value) ∧
      isHexBlank (hexChar value) = false := by
    decide +kernel
  exact all value bound

theorem hexChar_injective {value other : Nat} (bound : value < 16) (otherBound : other < 16)
    (equal : hexChar value = hexChar other) : value = other := by
  have digits := congrArg hexDigit equal
  rw [(hexDigit_hexChar bound).1, (hexDigit_hexChar otherBound).1,
    Option.some.injEq] at digits
  have numbers := congrArg UInt8.toNat digits
  simp only [UInt8.toNat_ofNat'] at numbers
  omega

theorem readHexPairs_byteDigits {byte : UInt8} (ascii : byte < 0x80) (rest : Bytes) :
    readHexPairs (byteDigits byte ++ rest) = (readHexPairs rest).map (byte :: ·) := by
  have bound := byte.toNat_lt
  have high := hexDigit_hexChar (show byte.toNat / 16 < 16 by omega)
  have low := hexDigit_hexChar (show byte.toNat % 16 < 16 by omega)
  have whole : 16 * UInt8.ofNat (byte.toNat / 16) + UInt8.ofNat (byte.toNat % 16) =
      byte := by
    apply UInt8.toNat_inj.mp
    simp only [UInt8.toNat_add, UInt8.toNat_mul, UInt8.toNat_ofNat', UInt8.reduceToNat]
    omega
  rw [byteDigits_eq, signDigits, if_pos ascii]
  simp only [List.nil_append, List.cons_append, readHexPairs, high, low, Bool.false_eq_true,
    if_false]
  cases readHexPairs rest with
  | none => rfl
  | some bytes => simp [whole]

theorem hexDigits_byteDigits (byte : UInt8) :
    ∀ char ∈ byteDigits byte, (hexDigit char).isSome = true := by
  have bound := byte.toNat_lt
  have high := hexDigit_hexChar (show byte.toNat / 16 < 16 by omega)
  have low := hexDigit_hexChar (show byte.toNat % 16 < 16 by omega)
  have sign : ∀ char ∈ literal "FFFFFF", (hexDigit char).isSome = true := by
    decide +kernel
  intro char member
  rw [byteDigits_eq, List.mem_append] at member
  rcases member with member | member
  · apply sign
    unfold signDigits at member
    split at member
    · cases member
    · exact member
  · rcases List.mem_cons.mp member with rfl | member
    · simp [high]
    · rw [List.mem_singleton.mp member]
      simp [low]

theorem length_byteDigits (byte : UInt8) :
    (byteDigits byte).length = if byte < 0x80 then 2 else 8 := by
  rw [byteDigits_eq, signDigits]
  split <;> rfl

/-! ## Rows -/

theorem length_flatten_byteDigits (contents : Bytes) :
    ((contents.map byteDigits).flatten).length =
      2 * contents.length + 6 * contents.countP fun byte => !decide (byte < 0x80) := by
  induction contents with
  | nil => rfl
  | cons byte contents induction =>
      simp only [List.map_cons, List.flatten_cons, List.length_append, length_byteDigits,
        induction, List.length_cons, List.countP_cons]
      by_cases ascii : byte < 0x80 <;> simp [ascii] <;> omega

theorem readHexPairs_flatten {contents : Bytes} (ascii : ∀ byte ∈ contents, byte < 0x80) :
    readHexPairs (contents.map byteDigits).flatten = some contents := by
  induction contents with
  | nil => rfl
  | cons byte contents induction =>
      rw [List.map_cons, List.flatten_cons, readHexPairs_byteDigits (ascii _ List.mem_cons_self),
        induction fun other member => ascii other (List.mem_cons_of_mem _ member)]
      rfl

theorem byteDigits_append_injective {byte other : UInt8} {rest more : StdString}
    (equal : byteDigits byte ++ rest = byteDigits other ++ more) :
    byte = other ∧ rest = more := by
  have bound := byte.toNat_lt
  have otherBound := other.toNat_lt
  have same : ∀ signs : StdString,
      signs ++ [hexChar (byte.toNat / 16), hexChar (byte.toNat % 16)] ++ rest =
        signs ++ [hexChar (other.toNat / 16), hexChar (other.toNat % 16)] ++ more →
      byte = other ∧ rest = more := by
    intro signs equal
    rw [List.append_assoc, List.append_assoc] at equal
    simp only [List.append_cancel_left_eq, List.cons_append, List.nil_append,
      List.cons.injEq] at equal
    have high := hexChar_injective (by omega) (by omega) equal.1
    have low := hexChar_injective (by omega) (by omega) equal.2.1
    exact ⟨UInt8.toNat_inj.mp (by omega), equal.2.2⟩
  -- A byte without the sign digits starts with one of the digits 0 to 7.
  have differ : ∀ value < 8, hexChar value ≠ 'F'.toUInt8 := by decide +kernel
  have small : ∀ byte : UInt8, byte < 0x80 → byte.toNat / 16 < 8 := by
    intro byte ascii
    have numbers : byte.toNat < 128 := ascii
    omega
  rw [byteDigits_eq, byteDigits_eq, signDigits, signDigits] at equal
  by_cases ascii : byte < 0x80
  · by_cases otherAscii : other < 0x80
    · rw [if_pos ascii, if_pos otherAscii] at equal
      exact same [] equal
    · rw [if_pos ascii, if_neg otherAscii] at equal
      exact absurd (List.head_eq_of_cons_eq equal) (differ _ (small byte ascii))
  · by_cases otherAscii : other < 0x80
    · rw [if_neg ascii, if_pos otherAscii] at equal
      exact absurd (List.head_eq_of_cons_eq equal).symm (differ _ (small other otherAscii))
    · rw [if_neg ascii, if_neg otherAscii] at equal
      exact same _ equal

theorem bytesRow_injective : Function.Injective EmitterKind.bytesRow := by
  intro contents others equal
  simp only [bytesRow_eq, List.append_cancel_left_eq] at equal
  have starts : ∀ (byte : UInt8) (rest : StdString), byteDigits byte ++ rest ≠ [] := by
    intro byte rest empty
    have length := congrArg List.length empty
    rw [List.length_append, length_byteDigits] at length
    split at length <;> simp at length
  induction contents generalizing others with
  | nil =>
      cases others with
      | nil => rfl
      | cons other others => exact absurd equal.symm (starts _ _)
  | cons byte contents induction =>
      cases others with
      | nil => exact absurd equal (starts _ _)
      | cons other others =>
          rcases byteDigits_append_injective equal with ⟨rfl, rest⟩
          rw [induction rest]

theorem hexText_bytesRow_iff (contents : Bytes) :
    HexText contents (EmitterKind.bytesRow contents) ↔ ∀ byte ∈ contents, byte < 0x80 := by
  rw [bytesRow_eq]
  constructor
  · intro hexText
    have length := hexText.length
    rw [List.length_append, length_flatten_byteDigits] at length
    have marker : (literal "\\x").length = 2 := rfl
    have none : contents.countP (fun byte => !decide (byte < 0x80)) = 0 := by omega
    simpa [List.countP_eq_zero] using none
  · intro ascii
    refine ⟨⟨_, rfl, ?_⟩, ?_, readHexPairs_flatten ascii⟩
    · intro char member
      rcases List.mem_flatten.mp member with ⟨digits, isDigits, member⟩
      rcases List.mem_map.mp isDigits with ⟨byte, _, rfl⟩
      exact hexDigits_byteDigits byte char member
    · have none : contents.countP (fun byte => !decide (byte < 0x80)) = 0 := by
        simpa [List.countP_eq_zero] using ascii
      rw [List.length_append, length_flatten_byteDigits, none]
      rfl

/-! ## Queries -/

section

variable (Stream : Type) [CodedInputStream Stream] [LawfulCodedInputStream Stream]

/-- A path to bytes returns the row of each byte string that it selects, and a row is
the hex text of its byte string exactly when no byte has its upper bit set. -/
theorem bytesRows_hexText_iff (host : Host Message) {desc : Message} {path : StdString}
    {steps : List Step}
    (typed : TypedPath host.descSet.pool desc path steps (.scalar .bytes)) (message : Bytea)
    (conforms : Conforms steps (CodedInputStream.recursionLimit Stream)
      (.ofPayload message.data))
    (unknownLast : UnknownLastAlong steps (.ofPayload message.data)) :
    host.answer Stream desc path message =
        .ok ((evaluate steps (.ofPayload message.data)).map fun selected =>
          EmitterKind.bytesRow selected.payload) ∧
      ∀ contents, HexText contents (EmitterKind.bytesRow contents) ↔
        ∀ byte ∈ contents, byte < 0x80 := by
  refine ⟨?_, hexText_bytesRow_iff⟩
  rcases host.emits_typedPath Stream typed message conforms unknownLast fun _ _ => trivial with
    ⟨parts, last, final, chain, emits⟩
  rcases host.answer_of_emits chain emits with ⟨rows, answered, same⟩
  rw [answered, Except.ok.injEq]
  apply List.map_injective_iff.mpr (Option.some_injective StdString)
  rw [same, List.map_map]
  rfl

/-- `scalars.bytes_field` on a message whose field holds one seven-bit byte. -/
theorem bytesRows_hexText_iff_scalars :
    testHost.answer ArrayStream .exampleMessage (literal "scalars.bytes_field")
        ⟨[0x0A, 3, 0x7A, 1, 0x61], by decide⟩ =
      .ok [literal "\\x61"] ∧
    ∀ contents, HexText contents (EmitterKind.bytesRow contents) ↔
      ∀ byte ∈ contents, byte < 0x80 := by
  have texts : (literal "scalars.bytes_field").splitOn '.'.toUInt8 =
      [literal "scalars", literal "bytes_field"] := by decide
  have scalars : TypedPart testPool .exampleMessage (literal "scalars")
      (.occurrences 1 .message none) (.message .scalars) :=
    .single (rfl : findField testPool .exampleMessage (literal "scalars") =
      .ok (TestMessage.ofMessage "scalars" 1 false false .scalars)) rfl rfl ⟨rfl, rfl⟩
  have bytesField : TypedPart testPool .scalars (literal "bytes_field")
      (.occurrences 15 .bytes none) (.scalar .bytes) :=
    .single (rfl : findField testPool .scalars (literal "bytes_field") =
      .ok (TestMessage.single "bytes_field" 15 .bytes)) rfl rfl ⟨nofun, nofun, rfl⟩
  have typed : TypedPath testPool .exampleMessage (literal "scalars.bytes_field")
      [.occurrences 1 .message none, .occurrences 15 .bytes none] (.scalar .bytes) := by
    refine .parts nofun ?_
    rw [texts]
    exact .cons nofun scalars (.last nofun bytesField)
  have submessages : fieldValues 1 [0x0A, 3, 0x7A, 1, 0x61] = [.ofPayload [0x7A, 1, 0x61]] := by
    decide +kernel
  have conforms : Conforms [.occurrences 1 .message none, .occurrences 15 .bytes none]
      (CodedInputStream.recursionLimit ArrayStream)
      (.ofPayload [0x0A, 3, 0x7A, 1, 0x61]) := by
    refine ⟨⟨rfl, by decide +kernel⟩, by decide +kernel, fun occurrence member => ?_⟩
    have isFirst : occurrence ∈ fieldValues 1 [0x0A, 3, 0x7A, 1, 0x61] := member
    rw [submessages, List.mem_singleton] at isFirst
    subst isFirst
    exact ⟨⟨rfl, by decide +kernel⟩, by decide +kernel, fun _ _ => trivial⟩
  have selected : (evaluate [.occurrences 1 .message none, .occurrences 15 .bytes none]
      (.ofPayload [0x0A, 3, 0x7A, 1, 0x61])).map (fun selected =>
        EmitterKind.bytesRow selected.payload) = [literal "\\x61"] := by
    decide +kernel
  rw [← selected]
  exact bytesRows_hexText_iff ArrayStream testHost typed ⟨_, by decide⟩ conforms
    (by decide +kernel)

/-- The byte 0x80 in a bytes field is printed with eight digits. -/
theorem bytesField_signExtended :
    testHost.answer ArrayStream .scalars (literal "bytes_field")
        ⟨[0x7A, 1, 0x80], by decide⟩ = .ok [literal "\\xFFFFFF80"] ∧
      ¬ HexText [0x80] (literal "\\xFFFFFF80") ∧
      readBytea (literal "\\xFFFFFF80") = some [0xFF, 0xFF, 0xFF, 0x80] := by
  refine ⟨by decide +kernel, fun hexText => ?_, by decide⟩
  exact absurd hexText.length (by decide)

end

end PostgresProtobuf
