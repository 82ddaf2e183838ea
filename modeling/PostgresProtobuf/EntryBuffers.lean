import PostgresProtobuf.Congruence

/-! # What map filters hold

How the fields of an entry change the buffers of a map filter. -/

namespace PostgresProtobuf

open Foundation

namespace Setting

namespace EntryBuffers

/-- What a map filter holds after a field. A field that is neither key nor value ends the
entry, and outside an entry only length-delimited fields matter. -/
def after (buffers : EntryBuffers) (field : WireField) : EntryBuffers :=
  if buffers.inEntry ∧ field.number = 1 then
    { buffers with
      key := some field.value
      keyContents :=
        if field.value.wireType = 2 then field.value.payload else buffers.keyContents }
  else if buffers.inEntry ∧ field.number = 2 then
    { buffers with value := some field.value }
  else if buffers.inEntry ∨ field.value.wireType = 2 then
    .empty
  else
    buffers

def Matches (wantedKeyField : FieldInfo) (wantedKeyContents : StdString)
    (buffers : EntryBuffers) : Prop :=
  ∃ key, buffers.key = some key ∧
    entryMatches wantedKeyField wantedKeyContents key buffers.keyContents = true

def Reset (buffers : EntryBuffers) : Prop := buffers.inEntry = false → buffers = .empty

variable {buffers : EntryBuffers}

theorem Reset.of_inEntry (inEntry : buffers.inEntry = true) : buffers.Reset :=
  fun left => absurd (inEntry.symm.trans left) nofun

theorem after_key (inEntry : buffers.inEntry = true) {field : WireField}
    (isKey : field.number = 1) :
    buffers.after field = { buffers with
      key := some field.value
      keyContents :=
        if field.value.wireType = 2 then field.value.payload else buffers.keyContents } :=
  if_pos ⟨inEntry, isKey⟩

theorem after_value (inEntry : buffers.inEntry = true) (value : WireValue) :
    buffers.after ⟨2, value⟩ = { buffers with value := some value } := by
  simp [after, inEntry]

theorem after_entry {number : Nat} (notKey : ¬ (buffers.inEntry ∧ number = 1))
    (notValue : ¬ (buffers.inEntry ∧ number = 2)) (size : Nat) (payload : Bytes) :
    buffers.after ⟨number, .lengthDelimited size payload⟩ = .empty := by
  rw [after, if_neg notKey, if_neg notValue]
  exact if_pos (.inr rfl)

theorem reset_after (reset : buffers.Reset) (field : WireField) :
    (buffers.after field).Reset := by
  unfold after
  split
  · rename_i inEntry
    intro left
    exact absurd inEntry.1 (by simpa using left)
  · split
    · rename_i inEntry
      intro left
      exact absurd inEntry.1 (by simpa using left)
    · split
      · exact fun _ => rfl
      · exact reset

def Filled (buffers : EntryBuffers) : Prop :=
  (∃ key, buffers.key = some key) ∧ ∃ value, buffers.value = some value

theorem filled_empty : empty.Filled := ⟨⟨_, rfl⟩, _, rfl⟩

theorem filled_after (filled : buffers.Filled) (field : WireField) :
    (buffers.after field).Filled := by
  unfold after
  split
  · exact ⟨⟨_, rfl⟩, filled.2⟩
  · split
    · exact ⟨filled.1, _, rfl⟩
    · split
      · exact filled_empty
      · exact filled

theorem filled_foldl (filled : buffers.Filled) (fields : List WireField) :
    (fields.foldl after buffers).Filled := by
  induction fields generalizing buffers with
  | nil => exact filled
  | cons field fields induction => exact induction (filled_after filled field)

end EntryBuffers

section

variable {State : Type} (setting : Setting State) {keyType : FieldType}
variable {wantedKeyField : FieldInfo} {wantedKeyContents : StdString} {next : Delivery State}
variable {buffers : EntryBuffers} (reset : buffers.Reset)

include reset

theorem leaveEntry_snd :
    (setting.leaveEntry keyType wantedKeyField wantedKeyContents next buffers).2 = .empty := by
  unfold leaveEntry
  cases inEntry : buffers.inEntry with
  | true => rfl
  | false => simp [reset inEntry]

/-- A field leaves the buffers as `after` says, by induction on the budget. -/
theorem lookupField_snd (budget : Nat) (field : WireField) :
    (setting.lookupField keyType wantedKeyField wantedKeyContents next budget buffers field).2 =
      buffers.after field := by
  induction budget using Nat.strongRecOn generalizing buffers field with
  | _ budget induction =>
      rcases field with ⟨number, value⟩
      by_cases primitive : value.wireType ≠ 2
      · rw [lookupField_primitive _ _ _ _ _ primitive]
        unfold EntryBuffers.after
        cases inEntry : buffers.inEntry with
        | true =>
            by_cases isKey : number = 1
            · simp [isKey, primitive]
            · by_cases isValue : number = 2
              · simp [isValue]
              · simp [isKey, isValue, setting.leaveEntry_snd reset]
        | false => simp [primitive]
      · cases value with
        | lengthDelimited size payload =>
            unfold EntryBuffers.after
            by_cases isKey : buffers.inEntry ∧ number = 1
            · rcases isKey with ⟨inEntry, rfl⟩
              rw [lookupField_key _ _ _ _ _ inEntry]
              simp [inEntry, WireValue.wireType, WireValue.payload]
            · by_cases isValue : buffers.inEntry ∧ number = 2
              · rcases isValue with ⟨inEntry, rfl⟩
                rw [lookupField_value _ _ _ _ _ inEntry]
                simp [inEntry]
              · rw [lookupField_entry _ _ _ _ _ isKey isValue]
                simp only [if_neg isKey, if_neg isValue]
                rw [if_pos (.inr rfl)]
                refine setting.leaveEntry_snd ?_
                have inside : EntryBuffers.Reset { buffers with inEntry := true } :=
                  .of_inEntry rfl
                cases budget with
                | zero => exact inside
                | succ budget =>
                    -- The fields inside keep the buffers reset outside an entry.
                    generalize { buffers with inEntry := true } = start at inside
                    simp only [scanSubmessage, scanLevel]
                    generalize (readFields payload).1 = fields
                    induction fields generalizing start with
                    | nil => exact inside
                    | cons field fields inductionFields =>
                        have step := induction budget (Nat.lt_succ_self _) inside field
                        exact inductionFields _ (step ▸ EntryBuffers.reset_after inside field)
        | _ => exact absurd (by simp [WireValue.wireType]) primitive

end

end Setting

end PostgresProtobuf
