/-! # Outcomes of programs

What a program over a mutable world ends in: a value with a property of it and of the
world, or a fault that is allowed. The rules follow the structure of `do` blocks. -/

namespace PostgresProtobuf.Foundation

variable {World Fault Value Other : Type}

def Meets (allowed : Fault → World → Prop) (program : EStateM Fault World Value) (world : World)
    (post : Value → World → Prop) : Prop :=
  match program world with
  | .ok value after => post value after
  | .error fault after => allowed fault after

theorem Meets.imp {allowed excused : Fault → World → Prop}
    {program : EStateM Fault World Value} {world : World} {post weaker : Value → World → Prop}
    (meets : Meets allowed program world post)
    (returns : ∀ value after, post value after → weaker value after)
    (stops : ∀ fault after, allowed fault after → excused fault after) :
    Meets excused program world weaker := by
  unfold Meets at meets ⊢
  split at meets
  · exact returns _ _ meets
  · exact stops _ _ meets

structure Yields (program : EStateM Fault World Value) (post : Value → Prop) : Prop where
  returned : ∀ {world after value}, program world = .ok value after → post value

namespace Yields

theorem trivial (program : EStateM Fault World Value) : Yields program fun _ => True :=
  ⟨fun _ => True.intro⟩

theorem weaken {program : EStateM Fault World Value} {post weaker : Value → Prop}
    (yields : Yields program post) (implies : ∀ value, post value → weaker value) :
    Yields program weaker :=
  ⟨fun runs => implies _ (yields.returned runs)⟩

theorem pure {value : Value} {post : Value → Prop} (property : post value) :
    Yields (Pure.pure value : EStateM Fault World Value) post := by
  constructor
  intro world after returned runs
  cases runs
  exact property

theorem throw (fault : Fault) (post : Value → Prop) :
    Yields (MonadExcept.throw fault : EStateM Fault World Value) post :=
  ⟨fun runs => nomatch runs⟩

theorem bind {program : EStateM Fault World Value}
    {continuation : Value → EStateM Fault World Other} {middle : Value → Prop}
    {post : Other → Prop} (first : Yields program middle)
    (second : ∀ value, middle value → Yields (continuation value) post) :
    Yields (program >>= continuation) post := by
  constructor
  intro world after returned runs
  simp only [Bind.bind, EStateM.bind] at runs
  split at runs
  · rename_i value between firstRuns
    exact (second value (first.returned firstRuns)).returned runs
  · cases runs

theorem after {program : EStateM Fault World Value}
    {continuation : Value → EStateM Fault World Other} {post : Other → Prop}
    (second : ∀ value, Yields (continuation value) post) :
    Yields (program >>= continuation) post :=
  (trivial program).bind fun value _ => second value

end Yields

/-- A property of worlds, indexed by what is pending in them, and the faults that may break
it off. -/
structure Invariant (World Index Fault : Type) where
  allowed : Fault → World → Prop
  holds : Index → World → Prop

namespace Invariant

variable {Index : Type} (invariant : Invariant World Index Fault)

/-- Wherever the invariant holds at the index, the program returns with the property of its
value and of the index at which it holds then, or stops with an allowed fault. -/
def Keeps (program : EStateM Fault World Value) (index : Index)
    (post : Value → Index → Prop) : Prop :=
  ∀ world, invariant.holds index world →
    Meets invariant.allowed program world fun value after =>
      ∃ next, invariant.holds next after ∧ post value next

variable {invariant} {index : Index}

namespace Keeps

theorem weaken {program : EStateM Fault World Value} {post weaker : Value → Index → Prop}
    (keeps : invariant.Keeps program index post)
    (implies : ∀ value next, post value next → weaker value next) :
    invariant.Keeps program index weaker := by
  intro world holds
  apply (keeps world holds).imp
  · rintro value after ⟨next, holdsNext, property⟩
    exact ⟨next, holdsNext, implies _ _ property⟩
  · exact fun _ _ isAllowed => isAllowed

theorem pure {value : Value} {post : Value → Index → Prop} (property : post value index) :
    invariant.Keeps (Pure.pure value) index post :=
  fun _ holds => ⟨index, holds, property⟩

theorem throw {fault : Fault} {post : Value → Index → Prop}
    (isAllowed : ∀ world, invariant.holds index world → invariant.allowed fault world) :
    invariant.Keeps (MonadExcept.throw fault) index post :=
  fun world holds => isAllowed world holds

theorem bind {program : EStateM Fault World Value}
    {continuation : Value → EStateM Fault World Other}
    {middle : Value → Index → Prop} {post : Other → Index → Prop}
    (first : invariant.Keeps program index middle)
    (second : ∀ value next, middle value next →
      invariant.Keeps (continuation value) next post) :
    invariant.Keeps (program >>= continuation) index post := by
  intro world holds
  have meets := first world holds
  unfold Meets at meets ⊢
  cases runs : program world with
  | ok value after =>
      rw [runs] at meets
      rcases meets with ⟨next, holdsNext, property⟩
      have continues := second value next property after holdsNext
      simp only [Bind.bind, EStateM.bind, runs]
      exact continues
  | error fault after =>
      rw [runs] at meets
      simp only [Bind.bind, EStateM.bind, runs]
      exact meets

theorem and {program : EStateM Fault World Value} {post : Value → Index → Prop}
    {also : Value → Prop} (keeps : invariant.Keeps program index post)
    (yields : Yields program also) :
    invariant.Keeps program index fun value next => post value next ∧ also value := by
  intro world holds
  have meets := keeps world holds
  unfold Meets at meets ⊢
  cases runs : program world with
  | ok value after =>
      rw [runs] at meets
      rcases meets with ⟨next, holdsNext, property⟩
      exact ⟨next, holdsNext, property, yields.returned runs⟩
  | error fault after =>
      rw [runs] at meets
      exact meets

theorem of_ok {program : EStateM Fault World Value} {post : Value → Index → Prop}
    (runs : ∀ world, ∃ value after, program world = .ok value after ∧
      (invariant.holds index world → invariant.holds index after) ∧ post value index) :
    invariant.Keeps program index post := by
  intro world holds
  rcases runs world with ⟨value, after, isOk, same, property⟩
  unfold Meets
  rw [isOk]
  exact ⟨index, same holds, property⟩

theorem returned {program : EStateM Fault World Value} {post : Value → Index → Prop}
    (keeps : invariant.Keeps program index post) {world after : World} {value : Value}
    (holds : invariant.holds index world) (runs : program world = .ok value after) :
    ∃ next, invariant.holds next after ∧ post value next := by
  have meets := keeps world holds
  unfold Meets at meets
  rw [runs] at meets
  exact meets

theorem stopped {program : EStateM Fault World Value} {post : Value → Index → Prop}
    (keeps : invariant.Keeps program index post) {world after : World} {fault : Fault}
    (holds : invariant.holds index world) (stops : program world = .error fault after) :
    invariant.allowed fault after := by
  have meets := keeps world holds
  unfold Meets at meets
  rw [stops] at meets
  exact meets

end Keeps

end Invariant

end PostgresProtobuf.Foundation
