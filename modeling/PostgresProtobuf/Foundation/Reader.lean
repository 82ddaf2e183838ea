import Mathlib.Algebra.Group.Int.Defs
import Mathlib.Algebra.GroupWithZero.Nat

/-! # Byte readers

A reader takes one item off the front of a byte string or fails. `readAll`
iterates a reader until the bytes run out or it fails, and keeps the items read
before the failure. -/

namespace PostgresProtobuf.Foundation

abbrev Bytes := List UInt8

def Reader (Failure Item : Type) := Bytes → Except Failure (Item × Bytes)

namespace Reader

variable {Failure Item : Type}

def Shrinks (read : Reader Failure Item) : Prop :=
  ∀ bytes item rest, read bytes = .ok (item, rest) → rest.length < bytes.length

/-- The reader takes exactly `taken` to make `item`, whatever follows. -/
def Takes (read : Reader Failure Item) (taken : Bytes) (item : Item) : Prop :=
  ∀ rest, read (taken ++ rest) = .ok (item, rest)

/-- At most `limit` turns of the loop. -/
def readWithin (read : Reader Failure Item) :
    (limit : Nat) → Bytes → List Item × Option Failure
  | _, [] => ([], none)
  | 0, _ :: _ => ([], none)
  | limit + 1, byte :: bytes =>
      match read (byte :: bytes) with
      | .error failure => ([], some failure)
      | .ok (item, rest) =>
          let more := read.readWithin limit rest
          (item :: more.1, more.2)

def readAll (read : Reader Failure Item) (bytes : Bytes) :
    List Item × Option Failure :=
  read.readWithin bytes.length bytes

@[simp] theorem readAll_nil (read : Reader Failure Item) :
    read.readAll [] = ([], none) := rfl

theorem readWithin_of_length_le {read : Reader Failure Item}
    (shrinks : read.Shrinks) (limit : Nat) (bytes : Bytes)
    (enough : bytes.length ≤ limit) :
    read.readWithin limit bytes = read.readAll bytes := by
  induction limit using Nat.strongRecOn generalizing bytes with
  | _ limit ih =>
      match limit, bytes with
      | limit, [] => cases limit <;> rfl
      | 0, _ :: _ => simp at enough
      | limit + 1, byte :: bytes =>
          simp only [readAll, List.length_cons, readWithin]
          cases step : read (byte :: bytes) with
          | error failure => rfl
          | ok pair =>
              have smaller := shrinks _ pair.1 pair.2 step
              simp only [List.length_cons] at enough smaller
              have byLimit := ih limit (by omega) pair.2 (by omega)
              have byLength := ih bytes.length (by omega) pair.2 (by omega)
              simp only [byLimit, byLength]

theorem readAll_of_error {read : Reader Failure Item} {bytes : Bytes}
    {failure : Failure} (nonempty : bytes ≠ [])
    (step : read bytes = .error failure) :
    read.readAll bytes = ([], some failure) := by
  cases bytes with
  | nil => exact absurd rfl nonempty
  | cons byte bytes => simp only [readAll, List.length_cons, readWithin, step]

theorem readAll_of_ok {read : Reader Failure Item} (shrinks : read.Shrinks)
    {bytes rest : Bytes} {item : Item} (step : read bytes = .ok (item, rest)) :
    read.readAll bytes = (item :: (read.readAll rest).1, (read.readAll rest).2) := by
  have smaller := shrinks _ _ _ step
  cases bytes with
  | nil => simp at smaller
  | cons byte bytes =>
      simp only [List.length_cons] at smaller
      have enough := readWithin_of_length_le shrinks bytes.length rest (by omega)
      simp only [readAll, List.length_cons, readWithin, step]
      rw [enough, readAll]

/-- The cases of the loop: no bytes, a reader that fails, one item and the rest. -/
theorem readAll_induction {read : Reader Failure Item} (shrinks : read.Shrinks)
    {motive : Bytes → Prop} (nil : motive [])
    (failed : ∀ bytes failure, bytes ≠ [] → read bytes = .error failure →
      motive bytes)
    (taken : ∀ bytes item rest, read bytes = .ok (item, rest) → motive rest →
      motive bytes)
    (bytes : Bytes) : motive bytes := by
  induction size : bytes.length using Nat.strongRecOn generalizing bytes with
  | _ size ih =>
      cases step : read bytes with
      | error failure =>
          cases bytes with
          | nil => exact nil
          | cons byte bytes => exact failed _ failure (by simp) step
      | ok pair =>
          have smaller := shrinks _ pair.1 pair.2 step
          exact taken _ pair.1 pair.2 step (ih _ (by omega) pair.2 rfl)

theorem forall_mem_readAll {read : Reader Failure Item} {property : Item → Prop}
    (shrinks : read.Shrinks)
    (each : ∀ bytes item rest, read bytes = .ok (item, rest) → property item)
    (bytes : Bytes) : ∀ item ∈ (read.readAll bytes).1, property item := by
  induction bytes using readAll_induction shrinks with
  | nil => simp
  | failed bytes failure nonempty step => simp [readAll_of_error nonempty step]
  | taken bytes first rest step ih =>
      rw [readAll_of_ok shrinks step]
      intro item member
      rcases List.mem_cons.mp member with rfl | later
      · exact each _ _ _ step
      · exact ih item later

theorem sum_readAll_le {read : Reader Failure Item} {weight : Item → Nat}
    (shrinks : read.Shrinks)
    (each : ∀ bytes item rest, read bytes = .ok (item, rest) →
      weight item + rest.length ≤ bytes.length)
    (bytes : Bytes) : ((read.readAll bytes).1.map weight).sum ≤ bytes.length := by
  induction bytes using readAll_induction shrinks with
  | nil => simp
  | failed bytes failure nonempty step => simp [readAll_of_error nonempty step]
  | taken bytes item rest step ih =>
      have first := each _ _ _ step
      rw [readAll_of_ok shrinks step, List.map_cons, List.sum_cons]
      omega

/-- A byte string whose items are each taken whole reads as those items,
followed by whatever comes after it. -/
theorem readAll_append_of_takes {read : Reader Failure Item}
    (shrinks : read.Shrinks) :
    ∀ (pieces : List (Bytes × Item)) (rest : Bytes),
      (∀ piece ∈ pieces, read.Takes piece.1 piece.2) →
      read.readAll ((pieces.map Prod.fst).flatten ++ rest) =
        (pieces.map Prod.snd ++ (read.readAll rest).1, (read.readAll rest).2)
  | [], rest, _ => by simp
  | (taken, item) :: pieces, rest, takes => by
      have first := takes (taken, item) (by simp)
        ((pieces.map Prod.fst).flatten ++ rest)
      have others := readAll_append_of_takes shrinks pieces rest
        fun piece member => takes piece (by simp [member])
      have split := readAll_of_ok shrinks first
      simp only [List.map_cons, List.flatten_cons, List.append_assoc]
      rw [split, others]
      rfl

end Reader

end PostgresProtobuf.Foundation
