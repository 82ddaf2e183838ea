import Mathlib.Data.Option.Basic

/-! # Machines

Machines that refuse some of their steps, and properties that hold all along a run. -/

namespace PostgresProtobuf.Foundation

structure Machine (State Label : Type*) where
  initial : State
  next : State → Label → Option State

namespace Machine

variable {State Label : Type*} (machine : Machine State Label)

def run : State → List Label → Option State
  | state, [] => some state
  | state, label :: labels => (machine.next state label).bind fun after => run after labels

def Throughout (property : State → Prop) : State → List Label → Prop
  | state, [] => property state
  | state, label :: labels =>
      property state ∧ ∀ after ∈ machine.next state label,
        Throughout property after labels

def EveryStep (property : State → Label → Prop) : State → List Label → Prop
  | _, [] => True
  | state, label :: labels =>
      ∀ after ∈ machine.next state label,
        property state label ∧ EveryStep property after labels

variable {machine} {property : State → Prop}

theorem run_cons_eq_some {state final : State} {label : Label} {labels : List Label} :
    machine.run state (label :: labels) = some final ↔
      ∃ after, machine.next state label = some after ∧ machine.run after labels = some final :=
  Option.bind_eq_some_iff

theorem run_append_eq_some {state final : State} {front back : List Label} :
    machine.run state (front ++ back) = some final ↔
      ∃ middle, machine.run state front = some middle ∧ machine.run middle back = some final := by
  induction front generalizing state with
  | nil => simp [run]
  | cons label front induction =>
      simp only [List.cons_append, run_cons_eq_some, induction]
      constructor
      · intro runs
        obtain ⟨after, next, middle, first, rest⟩ := runs
        exact ⟨middle, ⟨after, next, first⟩, rest⟩
      · intro runs
        obtain ⟨middle, ⟨after, next, first⟩, rest⟩ := runs
        exact ⟨after, next, middle, first, rest⟩

theorem everyStep_append {allowed : State → Label → Prop} {state middle : State}
    {front back : List Label} (runs : machine.run state front = some middle) :
    machine.EveryStep allowed state (front ++ back) ↔
      machine.EveryStep allowed state front ∧ machine.EveryStep allowed middle back := by
  induction front generalizing state with
  | nil =>
      cases runs
      simp [EveryStep]
  | cons label front induction =>
      obtain ⟨after, next, rest⟩ := run_cons_eq_some.mp runs
      simp only [List.cons_append, EveryStep, next, Option.mem_some_iff, forall_eq',
        induction rest, and_assoc]

theorem Throughout.head {state : State} {labels : List Label}
    (throughout : machine.Throughout property state labels) : property state := by
  cases labels with
  | nil => exact throughout
  | cons label labels => exact throughout.1

theorem Throughout.of_run {state final : State} {labels : List Label}
    (throughout : machine.Throughout property state labels)
    (runs : machine.run state labels = some final) : property final := by
  induction labels generalizing state with
  | nil =>
      rw [← Option.some.inj runs]
      exact throughout
  | cons label labels induction =>
      rcases Option.bind_eq_some_iff.mp runs with ⟨after, next, rest⟩
      exact induction (throughout.2 after next) rest

/-- The invariant rule, with the converse: a property that follows from an invariant holds
throughout a run exactly if all its steps are allowed, where allowed steps keep the
invariant and other steps break the property. -/
theorem throughout_iff_everyStep (invariant : State → Prop)
    {allowed : State → Label → Prop}
    (follows : ∀ state, invariant state → property state)
    (keeps : ∀ state label after, invariant state →
      machine.next state label = some after → allowed state label → invariant after)
    (breaks : ∀ state label after, invariant state →
      machine.next state label = some after → ¬ allowed state label → ¬ property after)
    {state : State} (holds : invariant state) (labels : List Label) :
    machine.Throughout property state labels ↔ machine.EveryStep allowed state labels := by
  induction labels generalizing state with
  | nil => exact ⟨fun _ => trivial, fun _ => follows state holds⟩
  | cons label labels induction =>
      constructor
      · intro throughout after next
        have allowedStep : allowed state label := by
          by_contra notAllowed
          exact breaks state label after holds next notAllowed (throughout.2 after next).head
        have kept := keeps state label after holds next allowedStep
        exact ⟨allowedStep, (induction kept).mp (throughout.2 after next)⟩
      · intro everyStep
        apply And.intro (follows state holds)
        intro after next
        rcases everyStep after next with ⟨allowedStep, rest⟩
        exact (induction (keeps state label after holds next allowedStep)).mpr rest

end Machine

end PostgresProtobuf.Foundation
