import PostgresProtobuf.Foundation.Action

/-! # Realizing actions by programs

A program over a mutable world realizes an action when it records the action's
events, and returns or throws as the action ends. Where the action is undefined
nothing is asked of the program. The rules follow the structure of `do` blocks. -/

namespace PostgresProtobuf.Foundation

/-- Why an abstract action stops: the program throws, or its behaviour depends on
something that is not determined. -/
inductive Stop (Fault : Type)
  | raised (fault : Fault)
  | undefined
  deriving DecidableEq

structure Recorder (World Event : Type) where
  Records : World → List Event → World → Prop
  nil : ∀ world, Records world [] world
  append : ∀ {first second third : World} {front back : List Event},
    Records first front second → Records second back third →
      Records first (front ++ back) third

variable {World Fault State Event Value Other : Type}

def Realizes (recorder : Recorder World Event)
    (action : Action State (Stop Fault) Event) (state : State)
    (program : EStateM Fault World Value) (world : World)
    (post : Value → World → State → Prop) : Prop :=
  match action state with
  | (events, .ok next) =>
      ∃ value after, program world = .ok value after ∧
        recorder.Records world events after ∧ post value after next
  | (events, .error (.raised fault)) =>
      ∃ after, program world = .error fault after ∧
        recorder.Records world events after
  | (_, .error .undefined) => True

namespace Realizes

variable {recorder : Recorder World Event}
variable {action rest : Action State (Stop Fault) Event}
variable {state : State} {world : World}

theorem weaken {program : EStateM Fault World Value}
    {post weaker : Value → World → State → Prop}
    (realizes : Realizes recorder action state program world post)
    (implies : ∀ value after next, post value after next → weaker value after next) :
    Realizes recorder action state program world weaker := by
  unfold Realizes at realizes ⊢
  split at realizes
  · rcases realizes with ⟨value, after, runs, records, holds⟩
    exact ⟨value, after, runs, records, implies _ _ _ holds⟩
  · exact realizes
  · trivial

theorem bind {program : EStateM Fault World Value}
    {continuation : Value → EStateM Fault World Other}
    {middle : Value → World → State → Prop}
    {post : Other → World → State → Prop}
    (first : Realizes recorder action state program world middle)
    (second : ∀ value after next, middle value after next →
      Realizes recorder rest next (continuation value) after post) :
    Realizes recorder (action * rest) state (program >>= continuation) world post := by
  unfold Realizes at first
  rcases ends : action state with ⟨events, (_ | _) | next⟩
  · rename_i fault
    rw [ends] at first
    rcases first with ⟨after, runs, records⟩
    rw [Realizes, Action.mul_apply_of_error ends]
    exact ⟨after, by simp [Bind.bind, EStateM.bind, runs], records⟩
  · rw [Realizes, Action.mul_apply_of_error ends]
    trivial
  · rw [ends] at first
    rcases first with ⟨value, after, runs, records, holds⟩
    have follows := second value after next holds
    unfold Realizes at follows
    rw [Realizes, Action.mul_apply_of_ok ends]
    rcases endsRest : rest next with ⟨more, (_ | _) | last⟩
    · rw [endsRest] at follows
      rcases follows with ⟨final, runsRest, recordsRest⟩
      exact ⟨final, by simp [Bind.bind, EStateM.bind, runs, runsRest],
        recorder.append records recordsRest⟩
    · trivial
    · rw [endsRest] at follows
      rcases follows with ⟨result, final, runsRest, recordsRest, holdsRest⟩
      exact ⟨result, final, by simp [Bind.bind, EStateM.bind, runs, runsRest],
        recorder.append records recordsRest, holdsRest⟩

theorem pure {value : Value} {post : Value → World → State → Prop}
    (holds : post value world state) :
    Realizes recorder (1 : Action State (Stop Fault) Event) state
      (Pure.pure value) world post :=
  ⟨value, world, rfl, recorder.nil world, holds⟩

theorem throw {fault : Fault} {post : Value → World → State → Prop} :
    Realizes recorder (Action.stop (.raised fault)) state
      (MonadExcept.throw fault) world post :=
  ⟨world, rfl, recorder.nil world⟩

theorem undefined {program : EStateM Fault World Value}
    {post : Value → World → State → Prop} :
    Realizes recorder (Action.stop .undefined) state program world post := trivial

theorem congr {program other : EStateM Fault World Value} {start : World}
    {post : Value → World → State → Prop} (equal : program world = other start)
    (records : recorder.Records world [] start)
    (realizes : Realizes recorder action state other start post) :
    Realizes recorder action state program world post := by
  have prepend : ∀ events after, recorder.Records start events after →
      recorder.Records world events after := fun _ _ more => recorder.append records more
  unfold Realizes at realizes ⊢
  rw [equal]
  split at realizes
  · rcases realizes with ⟨value, after, runs, more, holds⟩
    exact ⟨value, after, runs, prepend _ _ more, holds⟩
  · rcases realizes with ⟨after, runs, more⟩
    exact ⟨after, runs, prepend _ _ more⟩
  · trivial

theorem silent {program : EStateM Fault World Value}
    {continuation : Value → EStateM Fault World Other} {value : Value} {after : World}
    {post : Other → World → State → Prop}
    (runs : program world = .ok value after)
    (records : recorder.Records world [] after)
    (realizes : Realizes recorder action state (continuation value) after post) :
    Realizes recorder action state (program >>= continuation) world post :=
  congr (by simp only [Bind.bind, EStateM.bind, runs]) records realizes

theorem of_silent {program : EStateM Fault World Value} {value : Value} {after : World}
    {post : Value → World → State → Prop}
    (runs : program world = .ok value after)
    (records : recorder.Records world [] after) (holds : post value after state) :
    Realizes recorder (1 : Action State (Stop Fault) Event) state program world post :=
  ⟨value, after, runs, records, holds⟩

theorem andSilent {program : EStateM Fault World Value}
    {continuation : Value → EStateM Fault World Other}
    {middle : Value → World → State → Prop} {post : Other → World → State → Prop}
    (first : Realizes recorder action state program world middle)
    (second : ∀ value after next, middle value after next →
      ∃ result final, continuation value after = .ok result final ∧
        recorder.Records after [] final ∧ post result final next) :
    Realizes recorder action state (program >>= continuation) world post := by
  rw [← mul_one action]
  refine first.bind fun value after next holds => ?_
  rcases second value after next holds with ⟨result, final, runs, records, goal⟩
  exact of_silent runs records goal

theorem choose {Reading : Type} {read : State → Reading × State}
    {rest : Reading → Action State (Stop Fault) Event}
    {program : EStateM Fault World Value} {post : Value → World → State → Prop}
    (realizes : Realizes recorder (rest (read state).1) (read state).2 program world post) :
    Realizes recorder (Action.choose read rest) state program world post := realizes

end Realizes

end PostgresProtobuf.Foundation
