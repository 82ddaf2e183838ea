import PostgresProtobuf.Semantics

/-! # Reading fields off a stream

What the traverser's reads do, in terms of the bytes left before the limit. -/

namespace PostgresProtobuf

open Foundation

variable {Stream : Type} [CodedInputStream Stream] [LawfulCodedInputStream Stream]

open LawfulCodedInputStream (view view_valid)

def Reaches (stream next : Stream) (count : Nat) : Prop :=
  count ≤ (view stream).left.length ∧ view next = (view stream).advance count

namespace Reaches

theorem refl (stream : Stream) : Reaches stream stream 0 := ⟨Nat.zero_le _, by simp⟩

theorem left_eq {stream next : Stream} {count : Nat} (reaches : Reaches stream next count) :
    (view next).left = (view stream).left.drop count := by
  rw [reaches.2, StreamView.left_advance]

theorem budget_eq {stream next : Stream} {count : Nat}
    (reaches : Reaches stream next count) :
    (view next).recursionBudget = (view stream).recursionBudget := by
  rw [reaches.2]
  rfl

theorem trans {first second third : Stream} {front back : Nat}
    (start : Reaches first second front) (finish : Reaches second third back) :
    Reaches first third (front + back) := by
  refine ⟨?_, ?_⟩
  · have bound := finish.1
    rw [start.left_eq, List.length_drop] at bound
    have := start.1
    omega
  · rw [finish.2, start.2, StreamView.advance_advance]

theorem of_suffix {stream next : Stream} {taken rest : Bytes}
    (split : (view stream).left = taken ++ rest)
    (views : view next = (view stream).advance ((view stream).left.length - rest.length)) :
    Reaches stream next taken.length ∧ (view next).left = rest := by
  have count : (view stream).left.length - rest.length = taken.length := by simp [split]
  rw [count] at views
  refine ⟨⟨by simp [split], views⟩, ?_⟩
  rw [views, StreamView.left_advance, split, List.drop_left]

end Reaches

def Carries (stream : Stream) : WireValue → Prop
  | .lengthDelimited size payload =>
      size < 2 ^ 31 ∧ payload = (view stream).left.take size
  | _ => True

theorem Carries.payload_length_le {stream : Stream} {value : WireValue}
    (carries : Carries stream value) :
    value.payload.length ≤ (view stream).left.length := by
  cases value with
  | lengthDelimited size payload =>
      rcases carries with ⟨_, rfl⟩
      exact List.length_take_le' ..
  | _ => exact Nat.zero_le _

theorem Carries.length_eq {stream : Stream} {size : Nat} {payload : Bytes}
    (carries : Carries stream (.lengthDelimited size payload)) :
    payload.length = min size (view stream).left.length := by
  rcases carries with ⟨_, rfl⟩
  exact List.length_take

/-! ## Headers -/

section

variable {Memory : Type}

theorem readFieldValueOrSize_of_ok (field : FieldInfo) {stream : Stream}
    {value : WireValue} {rest : Bytes}
    (step : readValue field.wireType (view stream).left = .ok (value, rest))
    (world : World Memory Stream) :
    ∃ next count, readFieldValueOrSize field stream world =
        .ok ({ field with value := value.union field.value.bits }, next) world ∧
      Reaches stream next count ∧ 0 < count ∧
      (view next).left = value.payload ++ rest ∧ Carries next value := by
  have positive : ∀ {taken : Bytes}, taken ≠ [] → 0 < taken.length :=
    List.length_pos_iff.mpr
  rcases field with ⟨number, wireType, old⟩
  simp only [readValue] at step
  split at step
  · split at step
    · rename_i decodedValue decodedRest decoded
      simp only [Except.ok.injEq, Prod.mk.injEq] at step
      rcases step with ⟨rfl, rfl⟩
      rcases LawfulCodedInputStream.readVarint64_of_some _ _ _ decoded with
        ⟨next, reads, views⟩
      rcases decodeVarint_eq_some decoded with ⟨taken, nonempty, split, _⟩
      have reaches := Reaches.of_suffix split views
      exact ⟨next, _, by simp [readFieldValueOrSize, reads, pure, EStateM.pure,
        WireValue.union, FieldInfo.Value.setUInt64], reaches.1, positive nonempty, reaches.2,
        trivial⟩
    · simp at step
  · split at step
    · rename_i decodedValue decodedRest decoded
      simp only [Except.ok.injEq, Prod.mk.injEq] at step
      rcases step with ⟨rfl, rfl⟩
      rcases LawfulCodedInputStream.readLittleEndian64_of_some _ _ _ decoded with
        ⟨next, reads, views⟩
      rcases decodeFixed_eq_some decoded with ⟨taken, width, split, _⟩
      have reaches := Reaches.of_suffix split views
      exact ⟨next, _, by simp [readFieldValueOrSize, reads, pure, EStateM.pure,
        WireValue.union, FieldInfo.Value.setUInt64], reaches.1, by omega, reaches.2,
        trivial⟩
    · simp at step
  · split at step
    · rename_i size decodedRest decoded
      simp only [Except.ok.injEq, Prod.mk.injEq] at step
      rcases step with ⟨rfl, rfl⟩
      rcases LawfulCodedInputStream.readVarintSizeAsInt_of_some _ _ _ decoded with
        ⟨next, reads, views⟩
      rcases decodeSize_eq_some decoded with ⟨small, taken, nonempty, split, _⟩
      have reaches := Reaches.of_suffix split views
      refine ⟨next, _, by simp [readFieldValueOrSize, reads, pure, EStateM.pure,
        WireValue.union], reaches.1, positive nonempty, ?_, small, by rw [reaches.2]⟩
      simp [reaches.2, WireValue.payload]
    · simp at step
  · split at step
    · rename_i decodedValue decodedRest decoded
      simp only [Except.ok.injEq, Prod.mk.injEq] at step
      rcases step with ⟨rfl, rfl⟩
      rcases LawfulCodedInputStream.readLittleEndian32_of_some _ _ _ decoded with
        ⟨next, reads, views⟩
      rcases decodeFixed_eq_some decoded with ⟨taken, width, split, _⟩
      have reaches := Reaches.of_suffix split views
      exact ⟨next, _, by simp [readFieldValueOrSize, reads, pure, EStateM.pure,
        WireValue.union], reaches.1, by omega, reaches.2, trivial⟩
    · simp at step
  · simp at step

theorem readFieldValueOrSize_of_error (field : FieldInfo) {stream : Stream}
    {fault : FramingFault}
    (step : readValue field.wireType (view stream).left = .error fault)
    (world : World Memory Stream) :
    readFieldValueOrSize field stream world = .error (framingException fault) world := by
  rcases field with ⟨number, wireType, old⟩
  simp only [readValue] at step
  split at step
  · split at step
    · simp at step
    · rename_i decoded
      have fails := LawfulCodedInputStream.readVarint64_of_none stream decoded
      simp only [Except.error.injEq] at step
      subst step
      simp only [readFieldValueOrSize, fails]
      rfl
  · split at step
    · simp at step
    · rename_i decoded
      have fails := LawfulCodedInputStream.readLittleEndian64_of_none stream decoded
      simp only [Except.error.injEq] at step
      subst step
      simp only [readFieldValueOrSize, fails]
      rfl
  · split at step
    · simp at step
    · rename_i decoded
      have fails := LawfulCodedInputStream.readVarintSizeAsInt_of_none stream decoded
      simp only [Except.error.injEq] at step
      subst step
      simp only [readFieldValueOrSize, fails]
      rfl
  · split at step
    · simp at step
    · rename_i decoded
      have fails := LawfulCodedInputStream.readLittleEndian32_of_none stream decoded
      simp only [Except.error.injEq] at step
      subst step
      simp only [readFieldValueOrSize, fails]
      rfl
  · simp only [Except.error.injEq] at step
    subst step
    simp only [readFieldValueOrSize]
    rfl

end

/-! ## Payloads -/

theorem skip_reaches {stream : Stream} {size : Nat} {payload : Bytes}
    (carries : Carries stream (.lengthDelimited size payload)) :
    Reaches stream (CodedInputStream.skip size stream).2 payload.length := by
  refine ⟨carries.payload_length_le, ?_⟩
  rw [LawfulCodedInputStream.view_skip, carries.length_eq]

theorem readString_of_length_eq {stream : Stream} {size : Nat} {payload : Bytes}
    (carries : Carries stream (.lengthDelimited size payload))
    (whole : payload.length = size) :
    ∃ next, CodedInputStream.readString size stream = some (payload, next) ∧
      Reaches stream next payload.length := by
  have length := carries.length_eq
  rcases LawfulCodedInputStream.readString_of_le stream size (by omega) with
    ⟨next, reads, views⟩
  rw [← carries.2] at reads
  exact ⟨next, reads, carries.payload_length_le, by rw [views, whole]⟩

theorem readString_of_length_ne {stream : Stream} {size : Nat} {payload : Bytes}
    (carries : Carries stream (.lengthDelimited size payload))
    (short : payload.length ≠ size) :
    CodedInputStream.readString size stream = none := by
  have length := carries.length_eq
  exact LawfulCodedInputStream.readString_of_lt stream size (by omega)

theorem pushLimit_left {stream : Stream} {size : Nat} {payload : Bytes}
    (carries : Carries stream (.lengthDelimited size payload)) :
    (view (CodedInputStream.pushLimit size stream).2).left = payload ∧
      (view (CodedInputStream.pushLimit size stream).2).recursionBudget =
        (view stream).recursionBudget := by
  rw [LawfulCodedInputStream.view_pushLimit]
  refine ⟨?_, rfl⟩
  have bounds := view_valid stream
  simp only [StreamView.Valid] at bounds
  rw [carries.2]
  simp only [StreamView.left, List.take_take]
  congr 1
  omega

theorem popLimit_reaches {stream next : Stream} {size : Nat} {payload : Bytes}
    (carries : Carries stream (.lengthDelimited size payload))
    (reaches : Reaches (CodedInputStream.pushLimit size stream).2 next payload.length) :
    Reaches stream
      (CodedInputStream.popLimit (CodedInputStream.pushLimit size stream).1 next)
      payload.length := by
  refine ⟨carries.payload_length_le, ?_⟩
  have bounds := view_valid stream
  have length := StreamView.left_length bounds
  have short := carries.length_eq
  have views := reaches.2
  rw [LawfulCodedInputStream.view_pushLimit] at views
  simp only [StreamView.Valid] at bounds
  rw [LawfulCodedInputStream.view_popLimit]
  · rw [LawfulCodedInputStream.limitPosition_pushLimit, views]
    simp [StreamView.advance]
  · rw [LawfulCodedInputStream.limitPosition_pushLimit, views]
    simp only [StreamView.advance]
    omega
  · rw [LawfulCodedInputStream.limitPosition_pushLimit, views]
    simp only [StreamView.advance, List.length_drop]
    omega

theorem incrementRecursionDepth_left {stream : Stream} {size : Nat} {payload : Bytes}
    (carries : Carries stream (.lengthDelimited size payload)) :
    (view (CodedInputStream.incrementRecursionDepthAndPushLimit size stream).2).left =
        payload ∧
      (view (CodedInputStream.incrementRecursionDepthAndPushLimit size
        stream).2).recursionBudget = (view stream).recursionBudget - 1 := by
  have pushed := pushLimit_left carries
  rw [LawfulCodedInputStream.view_pushLimit] at pushed
  rw [LawfulCodedInputStream.view_incrementRecursionDepth]
  exact ⟨pushed.1, rfl⟩

theorem decrementRecursionDepth_reaches {stream next : Stream} {size : Nat}
    {payload : Bytes} (carries : Carries stream (.lengthDelimited size payload))
    (reaches : Reaches
      (CodedInputStream.incrementRecursionDepthAndPushLimit size stream).2 next
      payload.length) :
    Reaches stream
      (CodedInputStream.decrementRecursionDepthAndPopLimit
        (CodedInputStream.incrementRecursionDepthAndPushLimit size stream).1.1 next)
      payload.length := by
  refine ⟨carries.payload_length_le, ?_⟩
  have bounds := view_valid stream
  have length := StreamView.left_length bounds
  have short := carries.length_eq
  have views := reaches.2
  rw [LawfulCodedInputStream.view_incrementRecursionDepth] at views
  simp only [StreamView.Valid] at bounds
  rw [LawfulCodedInputStream.view_decrementRecursionDepth]
  · rw [LawfulCodedInputStream.limitPosition_incrementRecursionDepth, views]
    simp [StreamView.advance]
  · rw [LawfulCodedInputStream.limitPosition_incrementRecursionDepth, views]
    simp only [StreamView.advance]
    omega
  · rw [LawfulCodedInputStream.limitPosition_incrementRecursionDepth, views]
    simp only [StreamView.advance, List.length_drop]
    omega

end PostgresProtobuf
