import Mathlib.Algebra.GroupWithZero.Nat
import PostgresProtobuf.Foundation.Action

/-! # Credits

Events that are paid for. An action that is given credits pays for the events it logs and
leaves the others over, so that a sequence of actions is paid for part by part. -/

namespace PostgresProtobuf.Foundation

variable {State Reason Event : Type} {price : Event → Nat}

def Pays (price : Event → Nat) (action : Action State Reason Event) (before after : Nat) :
    Prop :=
  ∀ state, ((action state).1.map price).sum + after ≤ before

namespace Pays

variable {action rest : Action State Reason Event} {before middle after : Nat}

theorem one (enough : after ≤ before) :
    Pays price (1 : Action State Reason Event) before after := by
  intro state
  change 0 + after ≤ before
  omega

theorem stop (reason : Reason) (enough : after ≤ before) :
    Pays price (Action.stop reason : Action State Reason Event) before after := by
  intro state
  change 0 + after ≤ before
  omega

theorem log (event : Event) (enough : price event + after ≤ before) :
    Pays price (Action.log event : Action State Reason Event) before after := by
  intro state
  change price event + 0 + after ≤ before
  omega

theorem choose {Reading : Type} {read : State → Reading × State}
    {rest : Reading → Action State Reason Event}
    (pays : ∀ reading, Pays price (rest reading) before after) :
    Pays price (Action.choose read rest) before after :=
  fun _ => pays _ _

theorem weaken (pays : Pays price action middle after) (enough : middle ≤ before) :
    Pays price action before after :=
  fun state => Nat.le_trans (pays state) enough

theorem left (pays : Pays price action before middle) (fewer : after ≤ middle) :
    Pays price action before after := by
  intro state
  have paid := pays state
  omega

theorem frame (pays : Pays price action before after) (others : Nat) :
    Pays price action (before + others) (after + others) := by
  intro state
  have paid := pays state
  omega

theorem mul (pays : Pays price action before middle) (paysRest : Pays price rest middle after) :
    Pays price (action * rest) before after := by
  intro state
  have paid := pays state
  rcases ends : action state with ⟨events, reason | next⟩
  · have restPaid := paysRest state
    rw [ends] at paid
    rw [Action.mul_apply_of_error ends]
    dsimp only at paid ⊢
    omega
  · have restPaid := paysRest next
    rw [ends] at paid
    rw [Action.mul_apply_of_ok ends]
    dsimp only at paid ⊢
    rw [List.map_append, List.sum_append]
    omega

end Pays

end PostgresProtobuf.Foundation
