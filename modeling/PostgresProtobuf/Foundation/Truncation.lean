import PostgresProtobuf.Foundation.WireFormat

/-! # Bytes that are cut off

What a reader makes of a byte string that is cut off, against the whole byte string. -/

namespace PostgresProtobuf.Foundation

/-- Items that are cut off: the last one of them may be cut itself. -/
inductive Truncated {Item : Type} (Cut : Item → Item → Prop) : List Item → List Item → Prop
  | nil (others : List Item) : Truncated Cut [] others
  | last {item whole : Item} (cut : Cut item whole) (others : List Item) :
      Truncated Cut [item] (whole :: others)
  | cons (item : Item) {items others : List Item} (rest : Truncated Cut items others) :
      Truncated Cut (item :: items) (item :: others)

namespace Reader

variable {Failure Item : Type} {read : Reader Failure Item} {Cut : Item → Item → Prop}

/-- With more bytes the reader reads the same, unless it has come to their end and has cut
the item. -/
def Resumes (read : Reader Failure Item) (Cut : Item → Item → Prop) : Prop :=
  ∀ bytes item rest, read bytes = .ok (item, rest) → ∀ more,
    read (bytes ++ more) = .ok (item, rest ++ more) ∨
      rest = [] ∧ ∃ whole after, read (bytes ++ more) = .ok (whole, after) ∧ Cut item whole

theorem Takes.resumes {taken bytes rest : Bytes} {item : Item} (takes : read.Takes taken item)
    (split : bytes = taken ++ rest) (more : Bytes) :
    read (bytes ++ more) = .ok (item, rest ++ more) := by
  rw [split, List.append_assoc]
  exact takes (rest ++ more)

theorem readAll_truncated (shrinks : read.Shrinks) (resumes : read.Resumes Cut)
    (bytes more : Bytes) :
    Truncated Cut (read.readAll bytes).1 (read.readAll (bytes ++ more)).1 := by
  induction bytes using readAll_induction shrinks with
  | nil => exact .nil _
  | failed bytes failure nonempty step =>
      rw [readAll_of_error nonempty step]
      exact .nil _
  | taken bytes item rest step induction =>
      rw [readAll_of_ok shrinks step]
      rcases resumes bytes item rest step more with same | ⟨rfl, whole, after, isWhole, cut⟩
      · rw [readAll_of_ok shrinks same]
        exact .cons item induction
      · rw [readAll_of_ok shrinks isWhole]
        exact .last cut _

end Reader

/-! ## Values and fields -/

inductive WireValue.Cut : WireValue → WireValue → Prop
  | payload {size : Nat} {front : Bytes} (short : front.length < size) (back : Bytes) :
      Cut (.lengthDelimited size front) (.lengthDelimited size (front ++ back))

def WireField.Cut (field whole : WireField) : Prop :=
  field.number = whole.number ∧ field.value.Cut whole.value

theorem readValue_resumes (wireType : Nat) : (readValue wireType).Resumes WireValue.Cut := by
  intro bytes value rest step more
  by_cases fits : value.Fits
  · rcases (readValue_eq_ok step).2.2 fits with ⟨taken, _, split, takes⟩
    exact .inl (takes.resumes split more)
  · cases value with
    | lengthDelimited size payload =>
        obtain rfl : 2 = wireType := (readValue_eq_ok step).1
        simp only [readValue] at step
        split at step
        · rename_i declared left decoded
          cases step
          rcases decodeSize_eq_some decoded with ⟨_, taken, _, rfl, again⟩
          have short : left.length < size := by
            rw [WireValue.Fits, List.length_take] at fits
            omega
          rw [List.take_of_length_le (Nat.le_of_lt short),
            List.drop_of_length_le (Nat.le_of_lt short)]
          refine .inr ⟨rfl, .lengthDelimited size ((left ++ more).take size),
            (left ++ more).drop size, ?_, ?_⟩
          · simp only [readValue, List.append_assoc, again]
          · rw [List.take_append, List.take_of_length_le (Nat.le_of_lt short)]
            exact .payload short _
        · cases step
    | _ => exact absurd trivial fits

theorem readField_resumes : readField.Resumes WireField.Cut := by
  intro bytes field rest step more
  unfold readField at step
  split at step
  · rename_i tag left decoded
    split at step
    · rename_i value after read
      cases step
      rcases decodeTag_eq_some decoded with ⟨_, _, head, _, rfl, again⟩
      rcases readValue_resumes (tag % 8) left value rest read more with
        same | ⟨rfl, whole, others, isWhole, cut⟩
      · apply Or.inl
        simp only [readField, List.append_assoc, again, same]
      · refine .inr ⟨rfl, ⟨tag / 8, whole⟩, others, ?_, rfl, cut⟩
        simp only [readField, List.append_assoc, again, isWhole]
    · cases step
  · cases step

end PostgresProtobuf.Foundation
