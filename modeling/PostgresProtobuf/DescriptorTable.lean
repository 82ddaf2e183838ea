import PostgresProtobuf.DescriptorCache

/-! # The table of descriptor sets

What `GetOrCreateCached` makes of the rows. The name is the primary key of the table, and the
query that reads it asks for no order. -/

namespace PostgresProtobuf

open Foundation

variable {File Message : Type}

/-! ## Lookups by a key -/

section

variable {Key Value : Type} [BEq Key] [LawfulBEq Key] {entries others : List (Key × Value)}

theorem lookup_eq_some_iff_mem (nodup : (entries.map Prod.fst).Nodup) (key : Key)
    (value : Value) : entries.lookup key = some value ↔ (key, value) ∈ entries := by
  induction entries with
  | nil => simp
  | cons entry entries induction =>
      rcases entry with ⟨first, held⟩
      rcases List.nodup_cons.mp nodup with ⟨absent, nodupRest⟩
      rw [List.lookup_cons]
      by_cases same : key = first
      · subst same
        have notLater : (key, value) ∉ entries :=
          fun later => absent (List.mem_map.mpr ⟨_, later, rfl⟩)
        simp [notLater, eq_comm]
      · rw [beq_eq_false_iff_ne.mpr same, induction nodupRest]
        simp [same]

theorem lookup_of_perm (nodup : (entries.map Prod.fst).Nodup) (perm : entries.Perm others)
    (key : Key) : others.lookup key = entries.lookup key := by
  have nodupOthers : (others.map Prod.fst).Nodup := (perm.map Prod.fst).nodup_iff.mp nodup
  apply Option.ext
  intro value
  rw [lookup_eq_some_iff_mem nodupOthers, lookup_eq_some_iff_mem nodup, perm.mem_iff]

end

def FileDescriptorSets.HasPrimaryKey (table : FileDescriptorSets) : Prop :=
  (table.map Prod.fst).Nodup

namespace DescriptorLibrary

variable (library : DescriptorLibrary File Message)

/-- The descriptor sets by name; the files of a set are added from the last one on. -/
def tableDescDb (table : FileDescriptorSets) : DescDb Message where
  descSets name :=
    (table.lookup name).bind fun data =>
      (library.parseFromArray data).map fun files => library.descSet files.reverse

theorem lookup_filter_ne {name added : StdString} (different : name ≠ added)
    (descSets : DescSets File) :
    (descSets.filter fun descSet => descSet.1 ≠ added).lookup name = descSets.lookup name := by
  induction descSets with
  | nil => rfl
  | cons first others induction =>
      rcases first with ⟨key, held⟩
      by_cases isAdded : key = added
      · have notName : (name == key) = false := beq_eq_false_iff_ne.mpr (isAdded ▸ different)
        rw [List.filter_cons_of_neg (by simpa using isAdded), List.lookup_cons, notName]
        exact induction
      · rw [List.filter_cons_of_pos (by simpa using isAdded), List.lookup_cons,
          List.lookup_cons, induction]

theorem lookup_addFiles (descSets : DescSets File) (added : StdString) (files : List File)
    (name : StdString) :
    (addFiles descSets added files).lookup name =
      if name = added then some ((descSets.lookup added).getD [] ++ files.reverse)
      else descSets.lookup name := by
  unfold addFiles
  rw [List.lookup_cons]
  by_cases same : name = added
  · simp [same]
  · rw [if_neg same, beq_eq_false_iff_ne.mpr same]
    exact lookup_filter_ne same descSets

theorem lookup_readRows {descSets result : DescSets File} {rows : List (StdString × Bytes)}
    (reads : library.readRows none descSets rows = .ok result)
    (nodup : (rows.map Prod.fst).Nodup)
    (fresh : ∀ row ∈ rows, descSets.lookup row.1 = none) (name : StdString) :
    result.lookup name =
      match rows.lookup name with
      | none => descSets.lookup name
      | some data => (library.parseFromArray data).map List.reverse := by
  induction rows generalizing descSets with
  | nil =>
      cases reads
      rfl
  | cons row rows induction =>
      rcases row with ⟨key, data⟩
      rcases List.nodup_cons.mp nodup with ⟨absent, nodupRest⟩
      simp only [readRows, Option.map_none] at reads
      split at reads
      · cases reads
      · cases parsed : library.parseFromArray data with
        | none => simp [parsed] at reads
        | some files =>
            simp only [parsed] at reads
            have isFresh := fresh (key, data) List.mem_cons_self
            have freshRest : ∀ row ∈ rows,
                (addFiles descSets key files).lookup row.1 = none := by
              intro row member
              have different : row.1 ≠ key := fun same =>
                absent (List.mem_map.mpr ⟨row, member, same⟩)
              rw [lookup_addFiles, if_neg different]
              exact fresh row (List.mem_cons_of_mem _ member)
            have others := induction reads nodupRest freshRest
            rw [others, List.lookup_cons]
            by_cases same : name = key
            · subst same
              have notLater : rows.lookup name = none := by
                rw [List.lookup_eq_none_iff]
                intro row member
                exact bne_iff_ne.mpr fun isName =>
                  absent (List.mem_map.mpr ⟨row, member, isName.symm⟩)
              simp [notLater, lookup_addFiles, isFresh, parsed]
            · rw [beq_eq_false_iff_ne.mpr same, lookup_addFiles, if_neg same]

theorem readRows_error {descSets : DescSets File} {rows : List (StdString × Bytes)}
    {error : CacheError} (fails : library.readRows none descSets rows = .error error) :
    error = .badProto (literal "failed to parse FileDescriptorSet") := by
  induction rows generalizing descSets with
  | nil => cases fails
  | cons row rows induction =>
      rcases row with ⟨key, data⟩
      cases parsed : library.parseFromArray data with
      | none =>
          simp only [readRows, parsed] at fails
          exact (Except.error.inj fails).symm
      | some files =>
          simp only [readRows, parsed] at fails
          exact induction fails

theorem loadDescDb_none (table : FileDescriptorSets) :
    library.loadDescDb table none =
      (library.readRows none [] table).map fun descSets =>
        ⟨fun name => (descSets.lookup name).map library.descSet⟩ := by
  have isEmpty : ∀ point : FailurePoint, (none = some point) = False :=
    fun point => eq_false nofun
  simp only [loadDescDb, isEmpty, if_false]
  change ((library.readRows none [] table).bind fun descSets => _) = _
  cases library.readRows none [] table <;> rfl

theorem loadDescDb_of_parses {table : FileDescriptorSets} (primary : table.HasPrimaryKey)
    (parses : Parses library table) :
    library.loadDescDb table none = .ok (library.tableDescDb table) := by
  rcases (isOk_readRows library [] table).mpr parses with ⟨result, reads⟩
  rw [loadDescDb_none, reads]
  have looks := library.lookup_readRows reads primary (fun _ _ => rfl)
  have sameSets : ∀ name, (result.lookup name).map library.descSet =
      (library.tableDescDb table).descSets name := by
    intro name
    simp only [looks, tableDescDb]
    cases table.lookup name with
    | none => rfl
    | some data => exact Option.map_map _ _ _
  simp only [Except.map, sameSets]

theorem loadDescDb_of_not_parses {table : FileDescriptorSets}
    (unparsed : ¬ Parses library table) :
    library.loadDescDb table none =
      .error (.badProto (literal "failed to parse FileDescriptorSet")) := by
  rw [loadDescDb_none]
  cases reads : library.readRows none [] table with
  | ok result => exact absurd ((isOk_readRows library [] table).mp ⟨result, reads⟩) unparsed
  | error error =>
      rw [library.readRows_error reads]
      rfl

theorem readRows_failing (count : Nat) (descSets : DescSets File)
    (rows : List (StdString × Bytes)) :
    ∃ error, library.readRows (some count) descSets rows = .error error := by
  induction rows generalizing count descSets with
  | nil => exact ⟨_, rfl⟩
  | cons row rows induction =>
      rcases row with ⟨name, data⟩
      rw [readRows]
      split
      · exact ⟨_, rfl⟩
      · cases library.parseFromArray data with
        | none => exact ⟨_, rfl⟩
        | some files => exact induction _ _

/-- A load that does not fail has what the table holds, whatever could have failed in it. -/
theorem loadDescDb_eq_ok {table : FileDescriptorSets} (primary : table.HasPrimaryKey)
    {failure : Option FailurePoint} {descDb : DescDb Message}
    (loads : library.loadDescDb table failure = .ok descDb) :
    descDb = library.tableDescDb table := by
  have unfailing : library.loadDescDb table failure = library.loadDescDb table none := by
    cases failure with
    | none => rfl
    | some point =>
        cases point with
        | heapAllocation row =>
            rcases library.readRows_failing row [] table with ⟨error, fails⟩
            have failed : library.loadDescDb table (some (.heapAllocation row)) =
                (library.readRows (some row) [] table).map fun descSets =>
                  ⟨fun name => (descSets.lookup name).map library.descSet⟩ := by
              change ((library.readRows (some row) [] table).bind fun descSets => _) = _
              cases library.readRows (some row) [] table <;> rfl
            rw [failed, fails] at loads
            cases loads
        | callbackAllocation => rfl
        | _ => cases loads
  rw [unfailing] at loads
  by_cases parses : Parses library table
  · exact Except.ok.inj (loads.symm.trans (library.loadDescDb_of_parses primary parses))
  · rw [library.loadDescDb_of_not_parses parses] at loads
    cases loads

/-- What the cache is filled with: one descriptor set for each row, with its files from the
last one on, or an error where a row cannot be parsed. The order of the rows does not
matter. -/
theorem loadDescDb_primaryKey {table : FileDescriptorSets} (primary : table.HasPrimaryKey) :
    (Parses library table →
        library.loadDescDb table none = .ok (library.tableDescDb table)) ∧
      (¬ Parses library table → library.loadDescDb table none =
        .error (.badProto (literal "failed to parse FileDescriptorSet"))) ∧
      ∀ other, table.Perm other →
        library.loadDescDb other none = library.loadDescDb table none := by
  refine ⟨library.loadDescDb_of_parses primary, library.loadDescDb_of_not_parses, ?_⟩
  intro other perm
  have primaryOther : FileDescriptorSets.HasPrimaryKey other :=
    (perm.map Prod.fst).nodup_iff.mp primary
  have sameParses : Parses library other ↔ Parses library table := by
    simp only [Parses, perm.mem_iff]
  by_cases parses : Parses library table
  · rw [library.loadDescDb_of_parses primaryOther (sameParses.mpr parses),
      library.loadDescDb_of_parses primary parses]
    have sameLookup := lookup_of_perm primary perm
    simp only [tableDescDb, sameLookup]
  · rw [library.loadDescDb_of_not_parses fun parsed => parses (sameParses.mp parsed),
      library.loadDescDb_of_not_parses parses]

/-- Three sets, one of them empty. -/
theorem loadDescDb_primaryKey_threeRows :
    let table : FileDescriptorSets :=
      [(literal "default", []), (literal "other", [1]), (literal "third", [1, 2])]
    (Parses testLibrary table →
        testLibrary.loadDescDb table none = .ok (testLibrary.tableDescDb table)) ∧
      (¬ Parses testLibrary table → testLibrary.loadDescDb table none =
        .error (.badProto (literal "failed to parse FileDescriptorSet"))) ∧
      ∀ other, table.Perm other →
        testLibrary.loadDescDb other none = testLibrary.loadDescDb table none :=
  loadDescDb_primaryKey testLibrary (by unfold FileDescriptorSets.HasPrimaryKey; decide)

end DescriptorLibrary

end PostgresProtobuf
