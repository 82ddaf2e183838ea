import PostgresProtobuf.Foundation.Reader
import Mathlib.Data.List.TakeWhile

/-! # Decimal integers as the C library reads them

`strtol` and its relatives skip blanks, take an optional sign and as many digits
as there are, and report how far they read. -/

namespace PostgresProtobuf.Foundation

def IsBlank (char : UInt8) : Bool := char == 32 || (9 ≤ char && char ≤ 13)

def IsDecimalDigit (char : UInt8) : Bool := 48 ≤ char && char ≤ 57

def digitsValue (digits : Bytes) : Nat :=
  digits.foldl (fun value digit => 10 * value + (digit.toNat - 48)) 0

def splitSign : Bytes → Bool × Bytes
  | 45 :: rest => (true, rest)
  | 43 :: rest => (false, rest)
  | text => (false, text)

def readInteger (text : Bytes) : Option (Int × Nat) :=
  let signed := splitSign (text.dropWhile IsBlank)
  let digits := signed.2.takeWhile IsDecimalDigit
  if digits.isEmpty then
    none
  else
    let magnitude : Int := digitsValue digits
    some (if signed.1 then -magnitude else magnitude,
      text.length - (signed.2.length - digits.length))

def DenotesInteger (text : Bytes) (value : Int) : Prop :=
  readInteger text = some (value, text.length)

instance (text : Bytes) (value : Int) : Decidable (DenotesInteger text value) := by
  unfold DenotesInteger
  infer_instance

theorem DenotesInteger.unique {text : Bytes} {left right : Int}
    (denotesLeft : DenotesInteger text left) (denotesRight : DenotesInteger text right) :
    left = right := by
  rw [DenotesInteger, denotesLeft] at denotesRight
  simpa using denotesRight

/-! ## The library functions -/

inductive IntegerFault
  | invalidArgument
  | outOfRange
  deriving DecidableEq

/-- `strtol` on a 64-bit platform: out of range values are clamped. -/
def strtol (text : Bytes) : Int × Nat :=
  match readInteger text with
  | some (value, count) => (max (-2 ^ 63) (min (2 ^ 63 - 1) value), count)
  | none => (0, 0)

def stoll (text : Bytes) : Except IntegerFault (Int × Nat) :=
  match readInteger text with
  | some (value, count) =>
      if -2 ^ 63 ≤ value ∧ value < 2 ^ 63 then .ok (value, count)
      else .error .outOfRange
  | none => .error .invalidArgument

/-- `std::stoull`: a minus sign negates modulo 2 ^ 64. -/
def stoull (text : Bytes) : Except IntegerFault (Nat × Nat) :=
  match readInteger text with
  | some (value, count) =>
      if value.natAbs < 2 ^ 64 then .ok ((value % 2 ^ 64).toNat, count)
      else .error .outOfRange
  | none => .error .invalidArgument

/-! ## Digits -/

theorem digitsValue_append_singleton (digits : Bytes) (digit : UInt8) :
    digitsValue (digits ++ [digit]) = 10 * digitsValue digits + (digit.toNat - 48) := by
  simp [digitsValue, List.foldl_append]

theorem takeWhile_append_of_all {keep : UInt8 → Bool} {front : Bytes} (rest : Bytes)
    (all : ∀ char ∈ front, keep char = true)
    (stops : ∀ char ∈ rest.head?, keep char = false) :
    (front ++ rest).takeWhile keep = front := by
  induction front with
  | nil =>
      cases rest with
      | nil => rfl
      | cons char rest => simp [stops char (by simp)]
  | cons char front induction =>
      have kept := all char (by simp)
      simp only [List.cons_append, List.takeWhile, kept]
      rw [induction fun other member => all other (by simp [member])]

/-! ## Literals -/

theorem DenotesInteger.nonempty {text : Bytes} {value : Int}
    (denotes : DenotesInteger text value) : text ≠ [] := by
  rintro rfl
  simp [DenotesInteger, readInteger, splitSign] at denotes

theorem stoll_of_denotes {text : Bytes} {value : Int} (denotes : DenotesInteger text value) :
    stoll text =
      if -2 ^ 63 ≤ value ∧ value < 2 ^ 63 then .ok (value, text.length)
      else .error .outOfRange := by
  rw [stoll, denotes]

theorem stoull_of_denotes {text : Bytes} {value : Int} (denotes : DenotesInteger text value) :
    stoull text =
      if value.natAbs < 2 ^ 64 then .ok ((value % 2 ^ 64).toNat, text.length)
      else .error .outOfRange := by
  rw [stoull, denotes]

theorem readInteger_of_stoll {text : Bytes} {value : Int} {count : Nat}
    (read : stoll text = .ok (value, count)) : readInteger text = some (value, count) := by
  unfold stoll at read
  split at read
  · rename_i found
    split at read
    · cases read
      exact found
    · cases read
  · cases read

theorem readInteger_of_stoull {text : Bytes} {value count : Nat}
    (read : stoull text = .ok (value, count)) :
    ∃ number : Int, readInteger text = some (number, count) ∧
      number.natAbs < 2 ^ 64 ∧ value = (number % 2 ^ 64).toNat := by
  unfold stoull at read
  split at read
  · rename_i found
    split at read
    · cases read
      exact ⟨_, found, ‹_›, rfl⟩
    · cases read
  · cases read

theorem splitSign_length_le (text : Bytes) : (splitSign text).2.length ≤ text.length := by
  unfold splitSign
  split
  · exact Nat.le_succ _
  · exact Nat.le_succ _
  · exact Nat.le_refl _

theorem DenotesInteger.digits {text : Bytes} {value : Int}
    (denotes : DenotesInteger text value) :
    ∀ char ∈ (splitSign (text.dropWhile IsBlank)).2, IsDecimalDigit char = true := by
  have positive := List.length_pos_iff.mpr denotes.nonempty
  unfold DenotesInteger readInteger at denotes
  simp only at denotes
  split at denotes
  · simp at denotes
  · simp only [Option.some.injEq, Prod.mk.injEq] at denotes
    have suffix : (splitSign (text.dropWhile IsBlank)).2.length ≤ text.length := by
      refine Nat.le_trans ?_ (List.dropWhile_suffix IsBlank).length_le
      exact splitSign_length_le _
    have prefixLength := (List.takeWhile_prefix IsDecimalDigit
      (l := (splitSign (text.dropWhile IsBlank)).2)).length_le
    have whole : (splitSign (text.dropWhile IsBlank)).2.takeWhile IsDecimalDigit =
        (splitSign (text.dropWhile IsBlank)).2 :=
      (List.takeWhile_prefix _).eq_of_length (by omega)
    exact List.takeWhile_eq_self_iff.mp whole

theorem DenotesInteger.mem {text : Bytes} {value : Int} (denotes : DenotesInteger text value)
    {char : UInt8} (member : char ∈ text) :
    IsBlank char = true ∨ char = 45 ∨ char = 43 ∨ IsDecimalDigit char = true := by
  rw [← List.takeWhile_append_dropWhile (p := IsBlank) (l := text), List.mem_append] at member
  rcases member with blank | rest
  · exact .inl (List.mem_takeWhile_imp blank)
  · have digits := denotes.digits char
    unfold splitSign at digits
    split at digits
    · rename_i after split
      rw [split] at rest
      rcases List.mem_cons.mp rest with isMinus | later
      · exact .inr (.inl isMinus)
      · exact .inr (.inr (.inr (digits later)))
    · rename_i after split
      rw [split] at rest
      rcases List.mem_cons.mp rest with isPlus | later
      · exact .inr (.inr (.inl isPlus))
      · exact .inr (.inr (.inr (digits later)))
    · exact .inr (.inr (.inr (digits rest)))

theorem splitSign_of_digit {first : UInt8} (isDigit : IsDecimalDigit first = true)
    (rest : Bytes) : splitSign (first :: rest) = (false, first :: rest) := by
  have bounds : 48 ≤ first.toNat ∧ first.toNat ≤ 57 := by
    simpa [IsDecimalDigit, UInt8.le_iff_toNat_le] using isDigit
  unfold splitSign
  split
  · rename_i equal
    cases equal
    simp at bounds
  · rename_i equal
    cases equal
    simp at bounds
  · rfl

theorem isBlank_of_digit {first : UInt8} (isDigit : IsDecimalDigit first = true) :
    IsBlank first = false := by
  have bounds : 48 ≤ first.toNat ∧ first.toNat ≤ 57 := by
    simpa [IsDecimalDigit, UInt8.le_iff_toNat_le] using isDigit
  simp only [IsBlank, Bool.or_eq_false_iff, beq_eq_false_iff_ne, Bool.and_eq_false_imp,
    decide_eq_true_eq, decide_eq_false_iff_not, UInt8.le_iff_toNat_le]
  refine ⟨?_, fun _ => ?_⟩
  · rintro rfl
    simp at bounds
  · simp only [UInt8.reduceToNat]
    omega

theorem readInteger_digits {digits rest : Bytes} (nonempty : digits ≠ [])
    (all : ∀ char ∈ digits, IsDecimalDigit char = true)
    (stops : ∀ char ∈ rest.head?, IsDecimalDigit char = false) :
    readInteger (digits ++ rest) = some ((digitsValue digits : Int), digits.length) := by
  cases digits with
  | nil => exact absurd rfl nonempty
  | cons first digits =>
      have isDigit := all first List.mem_cons_self
      have taken := takeWhile_append_of_all rest all stops
      simp only [readInteger, List.cons_append, List.dropWhile_cons, isBlank_of_digit isDigit,
        Bool.false_eq_true, if_false, splitSign_of_digit isDigit]
      rw [← List.cons_append, taken]
      simp only [List.isEmpty_cons, Bool.false_eq_true, if_false, List.length_append,
        Option.some.injEq, Prod.mk.injEq, true_and]
      omega

end PostgresProtobuf.Foundation
