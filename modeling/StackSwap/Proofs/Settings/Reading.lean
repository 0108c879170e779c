import StackSwap.Proofs.Settings.Placement

namespace StackSwap

namespace SettingLeaves

/-- The leaves of a table with their paths, unless a key is no path. -/
def ofTable? (values : List (String × SettingValue)) : Option SettingLeaves :=
  (SettingValue.leavesOfEntries values).mapM
    (fun (keys, leaf) => (KeyPath.ofKeys? keys).map (fun path => (path, leaf)))

/-- Sets leaves in turn. -/
def setAll (leaves own : SettingLeaves) : SettingLeaves :=
  own.foldl (fun leaves (path, leaf) => leaves.set path leaf) leaves

theorem setAll?_eq (leaves : SettingLeaves) (values : List (String × SettingValue)) :
    leaves.setAll? values = (ofTable? values).map leaves.setAll := by
  unfold ofTable? setAll
  rw [← foldlM_map, setAll?]
  congr
  funext leaves (keys, leaf)
  rw [Option.map_map]
  rfl

theorem ofTable?_eq {table : List (String × SettingValue)}
    (regular : (SettingValue.table table).Regular) :
    ofTable? table = some (NamedLeaves.withPaths (SettingValue.leavesOfEntries table)) := by
  have each : ∀ entry ∈ SettingValue.leavesOfEntries table,
      (KeyPath.ofKeys? entry.1).map (fun path => (path, entry.2)) =
        some (entry.1.map .name, entry.2) := by
    intro entry member
    rw [KeyPath.ofKeys?_eq (regular.isName (regular.mem_leavesOfEntries_iff.mp member).has),
      Option.map_some]
  exact (mapM_congr each).trans List.mapM_pure

end SettingLeaves

namespace NamedLeaves

open SettingValue (Sets Apart Agrees leavesOfEntries)

variable {leaves own : NamedLeaves} {path names : List String} {leaf value : SettingValue}

/-- Sets a leaf, in place of the one at the same path. -/
def set (leaves : NamedLeaves) (entry : List String × SettingValue) : NamedLeaves :=
  leaves.filter (fun leaf => leaf.1 ≠ entry.1) ++ [entry]

theorem mem_set {entry : List String × SettingValue} :
    (path, leaf) ∈ leaves.set entry ↔
      (path, leaf) = entry ∨ path ≠ entry.1 ∧ (path, leaf) ∈ leaves := by
  simp only [set, List.mem_append, List.mem_filter, List.mem_singleton, decide_eq_true_eq]
  tauto

theorem nodup_set (distinct : (leaves.map Prod.fst).Nodup) (entry : List String × SettingValue) :
    ((leaves.set entry).map Prod.fst).Nodup := by
  have kept : ((leaves.filter (fun leaf => leaf.1 ≠ entry.1)).map Prod.fst).Nodup :=
    distinct.sublist (List.filter_sublist.map Prod.fst)
  rw [set, List.map_append, List.map_singleton, ← List.concat_eq_append]
  refine kept.concat ?_
  intro member
  obtain ⟨other, member, same⟩ := List.mem_map.mp member
  exact of_decide_eq_true (List.mem_filter.mp member).2 same

/-- Sets leaves in turn. -/
def setAll (leaves own : NamedLeaves) : NamedLeaves := own.foldl set leaves

/-- Leaves at different paths do not replace each other. -/
theorem mem_setAll (leaves : NamedLeaves)
    (unique : ∀ path leaf other, (path, leaf) ∈ own → (path, other) ∈ own → leaf = other) :
    (path, leaf) ∈ leaves.setAll own ↔
      (path, leaf) ∈ own ∨ (∀ other, (path, other) ∉ own) ∧ (path, leaf) ∈ leaves := by
  induction own generalizing leaves with
  | nil => simp [setAll]
  | cons entry rest ih =>
    obtain ⟨names, value⟩ := entry
    have later := ih (leaves.set (names, value)) (fun path leaf other here there =>
      unique path leaf other (List.mem_cons_of_mem _ here) (List.mem_cons_of_mem _ there))
    rw [setAll] at later ⊢
    rw [List.foldl_cons, later, mem_set]
    by_cases same : path = names
    · subst same
      -- a later leaf at this path has the same value, so that it does not matter which one stays
      have again (other : SettingValue) (member : (path, other) ∈ rest) : other = value :=
        unique path other value (List.mem_cons_of_mem _ member) (List.mem_cons_self ..)
      constructor
      · rintro (member | ⟨_, here | ⟨different, _⟩⟩)
        · exact .inl (List.mem_cons_of_mem _ member)
        · exact .inl (here ▸ List.mem_cons_self ..)
        · exact absurd rfl different
      · rintro (member | ⟨unset, _⟩)
        · rcases List.mem_cons.mp member with here | member
          · cases here
            by_cases repeated : ∃ other, (path, other) ∈ rest
            · obtain ⟨other, member⟩ := repeated
              exact .inl (again other member ▸ member)
            · exact .inr ⟨not_exists.mp repeated, .inl rfl⟩
          · exact .inl member
        · exact absurd (List.mem_cons_self ..) (unset value)
    · simp [same]

theorem nodup_setAll (distinct : (leaves.map Prod.fst).Nodup) (own : NamedLeaves) :
    ((leaves.setAll own).map Prod.fst).Nodup := by
  induction own generalizing leaves with
  | nil => exact distinct
  | cons entry rest ih => exact ih (nodup_set distinct entry)

theorem withPaths_setAll (leaves own : NamedLeaves) :
    leaves.withPaths.setAll own.withPaths = (leaves.setAll own).withPaths := by
  induction own generalizing leaves with
  | nil => rfl
  | cons entry rest ih =>
    obtain ⟨names, leaf⟩ := entry
    have here : leaves.withPaths.set (names.map .name) leaf =
        (leaves.set (names, leaf)).withPaths := by
      have injective : Function.Injective (List.map KeyStep.name) :=
        List.map_injective_iff.mpr (fun _ _ same => KeyStep.name.inj same)
      rw [SettingLeaves.set, set, withPaths, withPaths, List.filter_map, List.map_append]
      congr 2
      exact List.filter_congr (fun entry _ => by simp [injective.eq_iff])
    rw [setAll, List.foldl_cons, ← setAll, ← ih, ← here]
    rfl

end NamedLeaves

namespace SettingSource

variable {surroundings : Surroundings} {sources : List SettingSource} {source : SettingSource}

/-- The source can be read, and the keys in its tables are distinct names. -/
def IsRegular (surroundings : Surroundings) (source : SettingSource) : Prop :=
  ∃ table, source.origin.read surroundings = .ok table ∧ (SettingValue.table table).Regular

/-- The leaves that are read from the source, if its keys are paths. -/
def leaves? (surroundings : Surroundings) (source : SettingSource) : Option SettingLeaves :=
  (source.origin.read surroundings).toOption.bind SettingLeaves.ofTable?

theorem leaves?_of_regular {table : List (String × SettingValue)}
    (read : source.origin.read surroundings = .ok table)
    (regular : (SettingValue.table table).Regular) :
    source.leaves? surroundings =
      some (NamedLeaves.withPaths (SettingValue.leavesOfEntries table)) := by
  rw [leaves?, read]
  exact SettingLeaves.ofTable?_eq regular

theorem readOver_eq_ok_iff {leaves next : SettingLeaves} :
    readOver surroundings leaves source = .ok next ↔
      ∃ own, source.leaves? surroundings = some own ∧ leaves.setAll own = next := by
  rw [readOver, leaves?]
  cases source.origin.read surroundings with
  | error fault => exact ⟨nofun, fun ⟨_, impossible, _⟩ => nomatch impossible⟩
  | ok table =>
    rw [Except.toOption, Option.bind_some]
    simp only [ok_bind, SettingLeaves.setAll?_eq]
    cases SettingLeaves.ofTable? table with
    | none => exact ⟨nofun, fun ⟨_, impossible, _⟩ => nomatch impossible⟩
    | some own =>
      constructor
      · rintro ⟨⟩
        exact ⟨own, rfl, rfl⟩
      · rintro ⟨_, ⟨⟩, rfl⟩
        rfl

theorem merged_eq_ok_iff {merged : List (String × SettingValue)} :
    SettingSource.merged surroundings sources = .ok merged ↔
      sources ≠ [] ∧ ∃ leaves, (ordered sources).foldlM (readOver surroundings) [] = .ok leaves ∧
        leaves.table = merged := by
  rw [SettingSource.merged]
  cases sources with
  | nil => exact ⟨nofun, fun impossible => absurd rfl impossible.1⟩
  | cons first rest =>
    constructor
    · intro merges
      obtain ⟨leaves, folded, same⟩ := bind_eq_ok_iff.mp merges
      exact ⟨List.cons_ne_nil _ _, leaves, folded, Except.ok.inj same⟩
    · rintro ⟨-, leaves, folded, rfl⟩
      exact bind_eq_ok_iff.mpr ⟨leaves, folded, rfl⟩

end SettingSource

end StackSwap
