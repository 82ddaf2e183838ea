import Mathlib.Data.List.Basic

/-! # Supplies

Outputs that are paid for by tokens, in their order. A consumer that is handed its tokens
piece by piece cannot give more than all of them pay for. -/

namespace PostgresProtobuf.Foundation

structure Supply (Token Output : Type) where
  Covers : List Token → List Output → Prop
  nil : ∀ tokens, Covers tokens []
  append : ∀ {front back first rest}, Covers front first → Covers back rest →
    Covers (front ++ back) (first ++ rest)

namespace Supply

variable {Token Output : Type} (supply : Supply Token Output)

theorem more {tokens : List Token} {outputs : List Output}
    (covers : supply.Covers tokens outputs) (after : List Token) :
    supply.Covers (tokens ++ after) outputs := by
  have both := supply.append covers (supply.nil after)
  rwa [List.append_nil] at both

theorem later {tokens : List Token} {outputs : List Output}
    (covers : supply.Covers tokens outputs) (before : List Token) :
    supply.Covers (before ++ tokens) outputs :=
  supply.append (supply.nil before) covers

def counting (Token Output : Type) : Supply Token Output where
  Covers tokens outputs := outputs.length ≤ tokens.length
  nil _ := Nat.zero_le _
  append := by
    intro front back first rest covers coversRest
    simp only [List.length_append]
    exact Nat.add_le_add covers coversRest

end Supply

/-! ## Excerpts -/

/-- The outputs are shown by pieces of the text that do not overlap, in their order. -/
inductive Excerpts {Token Output : Type} (Shows : List Token → Output → Prop) :
    List Token → List Output → Prop
  | nil (text : List Token) : Excerpts Shows text []
  | cons (gap : List Token) {piece rest : List Token} {output : Output}
      {outputs : List Output} (shows : Shows piece output)
      (others : Excerpts Shows rest outputs) :
      Excerpts Shows (gap ++ piece ++ rest) (output :: outputs)

namespace Excerpts

variable {Token Output : Type} {Shows : List Token → Output → Prop}
variable {text : List Token} {outputs : List Output}

theorem single (gap : List Token) {piece : List Token} {output : Output}
    (shows : Shows piece output) : Excerpts Shows (gap ++ piece) [output] := by
  have one := cons gap shows (nil [])
  rwa [List.append_nil] at one

theorem later (before : List Token) (excerpts : Excerpts Shows text outputs) :
    Excerpts Shows (before ++ text) outputs := by
  cases excerpts with
  | nil => exact nil _
  | cons gap shows others =>
      have deeper := cons (before ++ gap) shows others
      simpa using deeper

theorem append {more : List Token} {others : List Output}
    (excerpts : Excerpts Shows text outputs) (follows : Excerpts Shows more others) :
    Excerpts Shows (text ++ more) (outputs ++ others) := by
  induction excerpts with
  | nil text => exact follows.later text
  | cons gap shows _ induction =>
      have both := cons gap shows induction
      simpa using both

theorem imp {Others : List Token → Output → Prop}
    (weaker : ∀ piece output, Shows piece output → Others piece output)
    (excerpts : Excerpts Shows text outputs) : Excerpts Others text outputs := by
  induction excerpts with
  | nil text => exact nil text
  | cons gap shows _ induction => exact cons gap (weaker _ _ shows) induction

theorem infix_of_mem {outputs : List (List Token)} (excerpts : Excerpts Eq text outputs)
    {output : List Token} (member : output ∈ outputs) : output <:+: text := by
  induction excerpts with
  | nil => cases member
  | @cons gap piece rest _ _ shows _ induction =>
      rcases List.mem_cons.mp member with rfl | later
      · exact ⟨gap, rest, by rw [shows]⟩
      · exact (induction later).trans (List.suffix_append _ rest).isInfix

end Excerpts

def Supply.excerpts {Token Output : Type} (Shows : List Token → Output → Prop) :
    Supply Token Output where
  Covers := Excerpts Shows
  nil := .nil
  append := .append

end PostgresProtobuf.Foundation
