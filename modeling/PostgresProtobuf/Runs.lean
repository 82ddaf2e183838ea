import PostgresProtobuf.Adequacy

/-! # The outcome of a run

What `QueryImpl::Run` returns or throws, read off the meaning of its chain. -/

namespace PostgresProtobuf

open Foundation ChainVisitor

variable {Stream : Type} [CodedInputStream Stream] [LawfulCodedInputStream Stream]
variable {State : Type}

/-- How `QueryImpl::Run` ends when its `try` block ends so; `none` where that depends
on memory that nothing is known of. -/
def conclude (ending : List Event × Except (Stop Exception) State) :
    Option (Except Exception (List StdString)) :=
  match ending.2 with
  | .ok _ => some (.ok (Event.rows ending.1))
  | .error (.raised .limitReached) => some (.ok (Event.rows ending.1))
  | .error (.raised exception) => some (.error exception)
  | .error .undefined => none

noncomputable def Setting.outcome (setting : Setting State) (parts : List ChainPart)
    (last : ChainEnd) (state : State) (message : Bytes) :
    Option (Except Exception (List StdString)) :=
  conclude (setting.runs parts last message state)

/-- The message levels that the first run of a query enters and leaves, whether it
returns or throws. -/
def QueryImpl.trace (Stream : Type) [CodedInputStream Stream] [LawfulCodedInputStream Stream]
    (query : QueryImpl) (utils : PostgresUtils) (localBits : Nat → UInt64)
    (protoData : Bytea) : List Event :=
  match query.scan Stream utils localBits query.memory protoData with
  | .ok _ after => after.scanned.map ScanEvent.event
  | .error _ after => after.scanned.map ScanEvent.event

namespace QueryImpl

variable {setting : Setting State} {parts : List ChainPart} {last : ChainEnd}
variable {query : QueryImpl} {localBits : Nat → UInt64}

structure RestsAs (setting : Setting State) (parts : List ChainPart) (last : ChainEnd)
    (query : QueryImpl) (state : State) (limit : Nat) (memory : QueryMemory) : Prop where
  enough : parts.length < query.visitors.length
  resting : chainResting setting limit last 0 parts state memory.visitors
  rows : memory.rows = []

theorem scan_realizes
    (matching : Matches setting
      ⟨setting.utils, query.binaryToJsonString, localBits⟩ Stream)
    {protoData : Bytea} {state : State} {memory : QueryMemory}
    (rests : RestsAs setting parts last query state (protoData.data.length + 1) memory) :
    Realizes (runRecorder setting.knowledge.textless) (setting.runs parts last protoData.data) state
      (fun world : QueryWorld Stream =>
        scanRoot
          (scanContext ⟨setting.utils, query.binaryToJsonString, localBits⟩
            (protoData.data.length + 1) (query.visitors.length + 1) query.visitors.length)
          (protoData.data.length + 1) protoData world)
      ⟨memory, 0, []⟩
      fun _ after next =>
        chainResting setting (protoData.data.length + 1) last 0 parts next
          after.memory.visitors :=
  scanRoot_realizes matching (Nat.succ_lt_succ (Nat.zero_lt_of_lt rests.enough))
    (Nat.le_of_lt rests.enough) protoData rests.resting

theorem runOn_eq (texts : setting.knowledge.textless = false)
    (matching : Matches setting
      ⟨setting.utils, query.binaryToJsonString, localBits⟩ Stream)
    {protoData : Bytea} {state : State} {memory : QueryMemory}
    (rests : RestsAs setting parts last query state (protoData.data.length + 1) memory)
    {result : Except Exception (List StdString)}
    (concluded : setting.outcome parts last state protoData.data = some result) :
    (query.runOn Stream setting.utils localBits memory protoData).1 = result := by
  have realizes := scan_realizes matching rests
  unfold Realizes at realizes
  simp only [texts] at realizes
  unfold Setting.outcome at concluded
  rcases ends : setting.runs parts last protoData.data state with
    ⟨events, (exception | _) | next⟩
  · rw [ends] at realizes concluded
    rcases realizes with ⟨after, runs, ⟨_, rows, rfl⟩, _⟩
    have scans : query.scan Stream setting.utils localBits memory protoData =
        .error exception after := runs
    cases exception <;>
      simp_all [runOn, conclude, rests.rows]
  · rw [ends] at concluded
    simp [conclude] at concluded
  · rw [ends] at realizes concluded
    rcases realizes with ⟨_, after, runs, ⟨⟨_, rows, rfl⟩, _⟩, _⟩
    have scans : query.scan Stream setting.utils localBits memory protoData =
        .ok () after := runs
    simp_all [runOn, conclude, rests.rows]

end QueryImpl

end PostgresProtobuf
