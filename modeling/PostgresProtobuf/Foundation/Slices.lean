import Mathlib.Data.List.Perm.Basic

/-! # Slices and groups

A list that is put together from slices with consecutive indices, or from groups with the
same label. -/

namespace PostgresProtobuf.Foundation

variable {Item : Type*}

/-- The list is the slices from one index up to another, and all other slices are empty. -/
structure Sliced (low high : Nat) (whole : List Item) (slice : Nat → List Item) : Prop where
  ordered : low ≤ high
  outside : ∀ index, index < low ∨ high ≤ index → slice index = []
  joined : whole = (List.range' low (high - low)).flatMap slice

namespace Sliced

variable {low middle high : Nat} {whole rest : List Item} {slice others : Nat → List Item}

theorem nil (index : Nat) : Sliced index index ([] : List Item) fun _ => [] where
  ordered := Nat.le_refl index
  outside _ _ := rfl
  joined := by simp

theorem single (index : Nat) (items : List Item) :
    Sliced index (index + 1) items fun other => if other = index then items else [] where
  ordered := Nat.le_succ index
  outside other distinct := if_neg (by omega)
  joined := by simp

private theorem range'_split (ordered : low ≤ middle) (later : middle ≤ high) :
    List.range' low (high - low) =
      List.range' low (middle - low) ++ List.range' middle (high - middle) := by
  have joined : List.range' low (middle - low) ++
      List.range' (low + (middle - low)) (high - middle) = _ := List.range'_append_1
  rw [Nat.add_sub_of_le ordered] at joined
  rw [joined]
  congr 1
  omega

theorem widen (sliced : Sliced low middle whole slice) (later : middle ≤ high) :
    Sliced low high whole slice where
  ordered := Nat.le_trans sliced.ordered later
  outside index isOutside := sliced.outside index (by omega)
  joined := by
    have empty : (List.range' middle (high - middle)).flatMap slice = [] := by
      apply List.flatMap_eq_nil_iff.mpr
      intro index member
      exact sliced.outside index (.inr (List.mem_range'_1.mp member).1)
    rw [range'_split sliced.ordered later, List.flatMap_append, empty, List.append_nil]
    exact sliced.joined

theorem lower (sliced : Sliced middle high whole slice) (earlier : low ≤ middle) :
    Sliced low high whole slice where
  ordered := Nat.le_trans earlier sliced.ordered
  outside index isOutside := sliced.outside index (by omega)
  joined := by
    have empty : (List.range' low (middle - low)).flatMap slice = [] := by
      apply List.flatMap_eq_nil_iff.mpr
      intro index member
      have bounds := List.mem_range'_1.mp member
      exact sliced.outside index (.inl (by omega))
    rw [range'_split earlier sliced.ordered, List.flatMap_append, empty, List.nil_append]
    exact sliced.joined

theorem append (sliced : Sliced low middle whole slice) (after : Sliced middle high rest others) :
    Sliced low high (whole ++ rest) fun index => slice index ++ others index where
  ordered := Nat.le_trans sliced.ordered after.ordered
  outside index isOutside := by
    have later := after.ordered
    have earlier := sliced.ordered
    rw [sliced.outside index (by omega), after.outside index (by omega), List.nil_append]
  joined := by
    have onlyFirst : ∀ index ∈ List.range' low (middle - low),
        slice index ++ others index = slice index := by
      intro index member
      have bounds := List.mem_range'_1.mp member
      rw [after.outside index (.inl (by omega)), List.append_nil]
    have onlyRest : ∀ index ∈ List.range' middle (high - middle),
        slice index ++ others index = others index := by
      intro index member
      rw [sliced.outside index (.inr (List.mem_range'_1.mp member).1), List.nil_append]
    rw [range'_split sliced.ordered after.ordered, List.flatMap_append,
      List.flatMap_congr onlyFirst, List.flatMap_congr onlyRest, ← sliced.joined,
      ← after.joined]

theorem range {size : Nat} (sliced : Sliced 0 high whole slice) (enough : high ≤ size) :
    whole = (List.range size).flatMap slice := by
  rw [List.range_eq_range']
  exact (sliced.widen enough).joined

end Sliced

/-! ## Groups -/

section

variable {Source Label : Type*} [DecidableEq Label] {label : Source → Option Label}
variable {labels : List Label}

theorem flatMap_ite_of_not_mem {wanted : Option Label} (items : List Item)
    (absent : ∀ label ∈ labels, wanted ≠ some label) :
    (labels.flatMap fun label => if wanted = some label then items else []) = [] := by
  apply List.flatMap_eq_nil_iff.mpr
  intro label member
  exact if_neg (absent label member)

theorem flatMap_ite_of_mem (nodup : labels.Nodup) {wanted : Label} (member : wanted ∈ labels)
    (items : List Item) :
    (labels.flatMap fun label => if some wanted = some label then items else []) = items := by
  rcases List.append_of_mem member with ⟨front, back, rfl⟩
  have distinct := (List.perm_middle.nodup_iff).mp nodup
  have absent : ∀ label ∈ front ++ back, some wanted ≠ some label := by
    intro label other same
    cases same
    exact (List.nodup_cons.mp distinct).1 other
  rw [List.flatMap_append, List.flatMap_cons, if_pos rfl,
    flatMap_ite_of_not_mem items fun label other => absent label (List.mem_append_left _ other),
    flatMap_ite_of_not_mem items fun label other => absent label (List.mem_append_right _ other),
    List.nil_append, List.append_nil]

/-- The groups of all labels hold what the sources hold, by induction on the sources. A
source without a label holds nothing. -/
theorem groups_perm (contents : Source → List Item) (nodup : labels.Nodup)
    {sources : List Source} (labelled : ∀ source ∈ sources,
      contents source = [] ∨ ∃ wanted ∈ labels, label source = some wanted) :
    (labels.flatMap fun wanted =>
      (sources.filter fun source => label source = some wanted).flatMap contents).Perm
        (sources.flatMap contents) := by
  induction sources with
  | nil =>
      simp only [List.filter_nil, List.flatMap_nil]
      rw [List.flatMap_eq_nil_iff.mpr fun _ _ => rfl]
  | cons source sources induction =>
      have follows := induction fun other member => labelled other (List.mem_cons_of_mem _ member)
      have split : (fun wanted => ((source :: sources).filter fun source =>
          label source = some wanted).flatMap contents) = fun wanted =>
            (if label source = some wanted then contents source else []) ++
              (sources.filter fun source => label source = some wanted).flatMap contents := by
        funext wanted
        by_cases isLabel : label source = some wanted
        · rw [List.filter_cons, if_pos (decide_eq_true isLabel), List.flatMap_cons,
            if_pos isLabel]
        · rw [List.filter_cons, if_neg (mt of_decide_eq_true isLabel), if_neg isLabel,
            List.nil_append]
      have own : (labels.flatMap fun wanted =>
          if label source = some wanted then contents source else []) = contents source := by
        rcases labelled source List.mem_cons_self with nothing | ⟨wanted, member, isLabel⟩
        · rw [nothing]
          apply List.flatMap_eq_nil_iff.mpr
          intro wanted _
          exact ite_self _
        · rw [isLabel]
          exact flatMap_ite_of_mem nodup member _
      rw [split, List.flatMap_cons]
      apply (List.flatMap_append_perm labels _ _).symm.trans
      rw [own]
      exact follows.append_left _

end

end PostgresProtobuf.Foundation
