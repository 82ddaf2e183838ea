import PostgresProtobuf.Congruence

/-! # Answers of runs

Where nothing is uncertain, a run answers with its rows or with an exception, and
the answer of a sequence of actions is put together from theirs. -/

namespace PostgresProtobuf

open Foundation

abbrev Answer := Except Exception (List StdString)

namespace Answer

def followedBy (first rest : Answer) : Answer := do
  let rows ← first
  let more ← rest
  return rows ++ more

def collect (answers : List Answer) : Answer := answers.foldr followedBy (.ok [])

@[simp] theorem ok_followedBy_ok (rows more : List StdString) :
    followedBy (.ok rows) (.ok more) = .ok (rows ++ more) := rfl

@[simp] theorem error_followedBy (exception : Exception) (rest : Answer) :
    followedBy (.error exception) rest = .error exception := rfl

@[simp] theorem ok_followedBy_error (rows : List StdString) (exception : Exception) :
    followedBy (.ok rows) (.error exception) = .error exception := rfl

@[simp] theorem ok_nil_followedBy (rest : Answer) : followedBy (.ok []) rest = rest := by
  cases rest <;> rfl

@[simp] theorem followedBy_ok_nil (first : Answer) : followedBy first (.ok []) = first := by
  cases first with
  | error exception => rfl
  | ok rows => simp

theorem followedBy_assoc (first second third : Answer) :
    followedBy (followedBy first second) third =
      followedBy first (followedBy second third) := by
  cases first <;> cases second <;> cases third <;> simp

theorem followedBy_eq_ok_iff {first rest : Answer} {rows : List StdString} :
    followedBy first rest = .ok rows ↔
      ∃ front back, first = .ok front ∧ rest = .ok back ∧ rows = front ++ back := by
  cases first <;> cases rest <;> simp [eq_comm]

theorem ok_followedBy_eq_error_iff {rows : List StdString} {rest : Answer}
    {exception : Exception} :
    followedBy (.ok rows) rest = .error exception ↔ rest = .error exception := by
  cases rest <;> simp

@[simp] theorem collect_nil : collect [] = .ok [] := rfl

@[simp] theorem collect_cons (first : Answer) (rest : List Answer) :
    collect (first :: rest) = followedBy first (collect rest) := rfl

@[simp] theorem collect_append (front back : List Answer) :
    collect (front ++ back) = followedBy (collect front) (collect back) := by
  induction front with
  | nil => simp
  | cons first front induction => simp [induction, followedBy_assoc]

end Answer

def answer (action : Activity Unit) : Answer :=
  match action () with
  | (events, .ok _) => .ok (Event.rows events)
  | (_, .error (.raised exception)) => .error exception
  | (_, .error .undefined) => .error .outOfFuel

@[simp] theorem answer_one : answer 1 = .ok [] := rfl

@[simp] theorem answer_row (row : StdString) : answer (Action.log (.row row)) = .ok [row] :=
  rfl

@[simp] theorem answer_enter (budget : Int) (level : Bytes) :
    answer (Action.log (.enter budget level)) = .ok [] := rfl

@[simp] theorem answer_leave : answer (Action.log .leave) = .ok [] := rfl

@[simp] theorem answer_raise (exception : Exception) :
    answer (raise exception) = .error exception := rfl

@[simp] theorem answer_mul (first rest : Activity Unit) :
    answer (first * rest) = (answer first).followedBy (answer rest) := by
  unfold answer
  rcases ends : first () with ⟨events, (exception | _) | next⟩
  · rw [Action.mul_apply_of_error ends]
    rfl
  · rw [Action.mul_apply_of_error ends]
    rfl
  · rw [Action.mul_apply_of_ok ends]
    rcases rest () with ⟨more, (exception | _) | last⟩ <;> simp

@[simp] theorem answer_emit_ok_some (row : StdString) :
    answer (emit (.ok (some row))) = .ok [row] := rfl

theorem answer_scanLevel {Progress : Type} (budget : Nat)
    (turn : Progress → WireField → Activity Unit × Progress) (progress : Progress)
    (payload : Bytes) :
    answer (scanLevel budget turn progress payload).1 =
      (answer (turns turn progress (readFields payload).1).1).followedBy
        (answer (endOn (readFields payload).2)) := by
  simp [scanLevel]

def Proper (action : Activity Unit) : Prop :=
  ∀ state reason, (action state).2 = .error reason →
    ∃ exception : Exception, reason = .raised exception ∧ exception.Reported

theorem proper_log (event : Event) : Proper (Action.log event) := nofun

theorem proper_raise {exception : Exception} (reported : exception.Reported) :
    Proper (raise exception) := by
  rintro state reason ⟨rfl⟩
  exact ⟨exception, rfl, reported⟩

theorem Proper.mul {first rest : Activity Unit} (proper : Proper first)
    (properRest : Proper rest) : Proper (first * rest) := by
  intro state reason stops
  rcases ends : first state with ⟨events, other | next⟩
  · rw [Action.mul_apply_of_error ends] at stops
    exact proper state reason (by rw [ends]; exact stops)
  · rw [Action.mul_apply_of_ok ends] at stops
    exact properRest next reason stops

theorem proper_endOn (fault : Option FramingFault) : Proper (endOn fault) := by
  cases fault with
  | none => exact nofun
  | some fault => exact proper_raise (framingException_malformed fault).reported

theorem proper_kept : KeptByChains Proper where
  one := nofun
  raise _ malformed := proper_raise malformed.reported
  mul := Proper.mul
  level _ _ _ proper :=
    (((proper_log _).mul proper).mul (proper_endOn _)).mul (proper_log _)

section

variable (utils : PostgresUtils)
variable (binaryToJsonString : StdString → Bytes → Option StdString) (bits : UInt64)
variable (parts : List ChainPart) (last : ChainEnd)

theorem proper_chain (recursionLimit budget position : Nat) {value : WireValue}
    (sized : value.Sized) :
    Proper (((Setting.fixed utils binaryToJsonString recursionLimit bits).chain last position
      parts).field budget value) :=
  proper_kept.chain utils binaryToJsonString recursionLimit bits (fun _ => proper_log _) last
    (fun _ throws => proper_raise throws.reported) parts position budget sized

theorem conclude_proper {action : Activity Unit} (proper : Proper action) :
    conclude (action ()) = some (answer action) := by
  unfold conclude answer
  rcases ends : action () with ⟨events, reason | next⟩
  · rcases proper () reason (by rw [ends]) with ⟨exception, rfl, reported⟩
    cases exception <;> first | rfl | exact reported.elim
  · rfl

def Uninitialised.ZeroBuffers (uninitialised : Uninitialised) : Prop :=
  ∀ position, uninitialised.bufferedKeyField position = FieldInfo.zero ∧
    uninitialised.bufferedValueField position = FieldInfo.zero

theorem Uninitialised.ZeroBuffers.suits {uninitialised : Uninitialised}
    (zero : uninitialised.ZeroBuffers) {State : Type} (knowledge : Knowledge State)
    (state : State) : uninitialised.Suits knowledge state :=
  fun position _ => zero position

theorem matches_fixed (Stream : Type) [CodedInputStream Stream] :
    Matches (Setting.fixed utils binaryToJsonString (CodedInputStream.recursionLimit Stream) bits)
      ⟨utils, binaryToJsonString, fun _ => bits⟩ Stream :=
  ⟨rfl, rfl, fun _ => by rintro _ ⟨rfl⟩; rfl, rfl⟩

theorem run_fixed {Stream : Type} [CodedInputStream Stream] [LawfulCodedInputStream Stream]
    {uninitialised : Uninitialised} (zero : uninitialised.ZeroBuffers) (protoData : Bytea) :
    QueryImpl.run Stream ⟨chainObjects uninitialised parts last, binaryToJsonString⟩ utils
        (fun _ => bits) protoData =
      answer ((Setting.fixed utils binaryToJsonString
        (CodedInputStream.recursionLimit Stream) bits).runs parts last protoData.data) := by
  refine run_eq rfl (matches_fixed utils binaryToJsonString bits Stream) (zero.suits _ ()) ?_
  exact conclude_proper (proper_chain utils binaryToJsonString bits parts last
    (CodedInputStream.recursionLimit Stream) _ 0 protoData.size_lt)

end

end PostgresProtobuf
