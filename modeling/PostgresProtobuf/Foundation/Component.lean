import Mathlib.Data.List.Basic
import Mathlib.Logic.Function.Basic

/-! # Components

Machines that answer an input or refuse it, alone or many of them side by side. -/

namespace PostgresProtobuf.Foundation

structure Component (State Input Output : Type*) where
  initial : State
  respond : State → Input → Option (Output × State)

namespace Component

variable {State Input Output : Type*} (component : Component State Input Output)

def run : State → List Input → Option (List Output × State)
  | state, [] => some ([], state)
  | state, input :: inputs =>
      (component.respond state input).bind fun answer =>
        (run answer.2 inputs).map fun rest => (answer.1 :: rest.1, rest.2)

variable {component}

theorem run_cons_eq_some {state last : State} {input : Input} {inputs : List Input}
    {outputs : List Output} :
    component.run state (input :: inputs) = some (outputs, last) ↔
      ∃ output after rest, component.respond state input = some (output, after) ∧
        component.run after inputs = some (rest, last) ∧ outputs = output :: rest := by
  rw [run, Option.bind_eq_some_iff]
  constructor
  · intro answers
    rcases answers with ⟨⟨output, after⟩, responds, continues⟩
    rcases Option.map_eq_some_iff.mp continues with ⟨⟨rest, final⟩, runs, isWhole⟩
    cases isWhole
    exact ⟨output, after, rest, responds, runs, rfl⟩
  · intro answers
    rcases answers with ⟨output, after, rest, responds, runs, rfl⟩
    exact ⟨(output, after), responds, Option.map_eq_some_iff.mpr ⟨(rest, last), runs, rfl⟩⟩

theorem run_append_eq_some {state last : State} {front back : List Input}
    {outputs : List Output} :
    component.run state (front ++ back) = some (outputs, last) ↔
      ∃ first middle rest, component.run state front = some (first, middle) ∧
        component.run middle back = some (rest, last) ∧ outputs = first ++ rest := by
  induction front generalizing state outputs with
  | nil =>
      constructor
      · intro runs
        exact ⟨[], state, outputs, rfl, runs, rfl⟩
      · intro runs
        rcases runs with ⟨first, middle, rest, isNil, runs, rfl⟩
        cases isNil
        exact runs
  | cons input front induction =>
      rw [List.cons_append, run_cons_eq_some]
      constructor
      · intro answers
        rcases answers with ⟨output, after, others, responds, runs, rfl⟩
        rcases induction.mp runs with ⟨first, middle, rest, runsFront, runsBack, rfl⟩
        exact ⟨output :: first, middle, rest,
          run_cons_eq_some.mpr ⟨output, after, first, responds, runsFront, rfl⟩, runsBack, rfl⟩
      · intro answers
        rcases answers with ⟨first, middle, rest, runsFront, runsBack, rfl⟩
        rcases run_cons_eq_some.mp runsFront with ⟨output, after, others, responds, runs, rfl⟩
        exact ⟨output, after, others ++ rest, responds,
          induction.mpr ⟨others, middle, rest, runs, runsBack, rfl⟩, rfl⟩

/-! ## Simulation -/

def Simulates {Abstract : Type*} (component : Component State Input Output)
    (specification : Component Abstract Input Output) (allowed : Input → Prop)
    (relation : State → Abstract → Prop) : Prop :=
  ∀ {state abstract input output after}, relation state abstract → allowed input →
    component.respond state input = some (output, after) →
      ∃ next, specification.respond abstract input = some (output, next) ∧ relation after next

theorem Simulates.run {Abstract : Type*} {specification : Component Abstract Input Output}
    {allowed : Input → Prop} {relation : State → Abstract → Prop}
    (simulates : component.Simulates specification allowed relation) {state last : State}
    {abstract : Abstract} (related : relation state abstract) {inputs : List Input}
    (allAllowed : ∀ input ∈ inputs, allowed input) {outputs : List Output}
    (runs : component.run state inputs = some (outputs, last)) :
    ∃ final, specification.run abstract inputs = some (outputs, final) ∧
      relation last final := by
  induction inputs generalizing state abstract outputs with
  | nil =>
      cases runs
      exact ⟨abstract, rfl, related⟩
  | cons input inputs induction =>
      rcases run_cons_eq_some.mp runs with ⟨output, after, rest, responds, continues, rfl⟩
      rcases simulates related (allAllowed input List.mem_cons_self) responds with
        ⟨next, answers, stays⟩
      have continued := induction stays
        (fun other member => allAllowed other (List.mem_cons_of_mem _ member)) continues
      rcases continued with ⟨final, others, ends⟩
      exact ⟨final, run_cons_eq_some.mpr ⟨output, next, rest, answers, others, rfl⟩, ends⟩

/-! ## Side by side -/

section

variable (Site : Type*) [DecidableEq Site]

def sideBySide (component : Component State Input Output) :
    Component (Site → State) (Site × Input) (Site × Output) where
  initial _ := component.initial
  respond states tagged :=
    (component.respond (states tagged.1) tagged.2).map fun answer =>
      ((tagged.1, answer.1), Function.update states tagged.1 answer.2)

variable {Site} {Item : Type*}

def ofSite (site : Site) (tagged : List (Site × Item)) : List Item :=
  tagged.filterMap fun pair => if pair.1 = site then some pair.2 else none

theorem ofSite_cons_self (site : Site) (item : Item) (tagged : List (Site × Item)) :
    ofSite site ((site, item) :: tagged) = item :: ofSite site tagged := by
  rw [ofSite, List.filterMap_cons, if_pos rfl]
  rfl

theorem ofSite_cons_ne {site other : Site} (distinct : other ≠ site) (item : Item)
    (tagged : List (Site × Item)) :
    ofSite site ((other, item) :: tagged) = ofSite site tagged := by
  rw [ofSite, List.filterMap_cons, if_neg distinct]
  rfl

theorem mem_ofSite {site : Site} {item : Item} {tagged : List (Site × Item)}
    (member : item ∈ ofSite site tagged) : (site, item) ∈ tagged := by
  rcases List.mem_filterMap.mp member with ⟨⟨other, found⟩, isMember, isItem⟩
  split at isItem
  · rename_i isSite
    cases isSite
    cases isItem
    exact isMember
  · cases isItem

/-- However the inputs of the sites are interleaved, each site answers as if it were
alone. -/
theorem run_sideBySide {states last : Site → State} {tagged : List (Site × Input)}
    {outputs : List (Site × Output)}
    (runs : (component.sideBySide Site).run states tagged = some (outputs, last))
    (site : Site) :
    component.run (states site) (ofSite site tagged) =
      some (ofSite site outputs, last site) := by
  induction tagged generalizing states outputs with
  | nil =>
      cases runs
      rfl
  | cons first tagged induction =>
      rcases run_cons_eq_some.mp runs with ⟨output, after, rest, responds, continues, rfl⟩
      rcases Option.map_eq_some_iff.mp responds with ⟨⟨answer, state⟩, answers, isAnswer⟩
      cases isAnswer
      have others := induction continues
      rcases first with ⟨other, input⟩
      by_cases isSite : other = site
      · cases isSite
        rw [Function.update_self] at others
        rw [ofSite_cons_self, ofSite_cons_self]
        exact run_cons_eq_some.mpr ⟨answer, state, _, answers, others, rfl⟩
      · rw [Function.update_of_ne (Ne.symm isSite)] at others
        rw [ofSite_cons_ne isSite, ofSite_cons_ne isSite]
        exact others

end

end Component

end PostgresProtobuf.Foundation
