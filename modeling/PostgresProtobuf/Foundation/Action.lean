import Mathlib.Algebra.BigOperators.Group.List.Basic

/-! # Actions

Abstract sequential programs without a result. An action logs events, threads
a small state and may stop early. Actions form a monoid under sequencing, so a
loop over a list is the product of its turns. -/

namespace PostgresProtobuf.Foundation

def Action (State Reason Event : Type) :=
  State → List Event × Except Reason State

namespace Action

variable {State Reason Event : Type}

@[ext] theorem ext {left right : Action State Reason Event}
    (equal : ∀ state, left state = right state) : left = right :=
  funext equal

def andThen (first second : Action State Reason Event) :
    Action State Reason Event := fun state =>
  match first state with
  | (events, .error reason) => (events, .error reason)
  | (events, .ok next) =>
      let rest := second next
      (events ++ rest.1, rest.2)

def skip : Action State Reason Event := fun state => ([], .ok state)

instance : Mul (Action State Reason Event) := ⟨andThen⟩

instance : One (Action State Reason Event) := ⟨skip⟩

theorem one_apply (state : State) :
    (1 : Action State Reason Event) state = ([], .ok state) := rfl

theorem mul_apply (first second : Action State Reason Event) (state : State) :
    (first * second) state =
      match first state with
      | (events, .error reason) => (events, .error reason)
      | (events, .ok next) =>
          (events ++ (second next).1, (second next).2) := rfl

theorem mul_apply_of_ok {first second : Action State Reason Event}
    {state next : State} {events : List Event}
    (ends : first state = (events, .ok next)) :
    (first * second) state =
      (events ++ (second next).1, (second next).2) := by
  rw [mul_apply, ends]

theorem mul_apply_of_error {first second : Action State Reason Event}
    {state : State} {reason : Reason} {events : List Event}
    (stops : first state = (events, .error reason)) :
    (first * second) state = (events, .error reason) := by
  rw [mul_apply, stops]

instance : Monoid (Action State Reason Event) where
  mul_assoc first second third := by
    ext1 state
    rcases ends : first state with ⟨events, reason | next⟩
    · simp only [mul_apply, ends]
    · rcases endsSecond : second next with ⟨more, reason | last⟩
      · simp only [mul_apply, ends, endsSecond]
      · simp only [mul_apply, ends, endsSecond, List.append_assoc]
  one_mul action := by
    ext1 state
    simp [mul_apply, one_apply]
  mul_one action := by
    ext1 state
    rcases ends : action state with ⟨events, reason | next⟩ <;>
      simp [mul_apply, one_apply, ends]

def log (event : Event) : Action State Reason Event :=
  fun state => ([event], .ok state)

def stop (reason : Reason) : Action State Reason Event :=
  fun _ => ([], .error reason)

@[simp] theorem log_apply (event : Event) (state : State) :
    (log event : Action State Reason Event) state = ([event], .ok state) := rfl

def choose {Reading : Type} (read : State → Reading × State)
    (rest : Reading → Action State Reason Event) : Action State Reason Event :=
  fun state => rest (read state).1 (read state).2

end Action

end PostgresProtobuf.Foundation
