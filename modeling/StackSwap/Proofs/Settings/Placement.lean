import StackSwap.Proofs.Settings.Leaf

namespace StackSwap

namespace SettingValue

variable {value leaf : SettingValue} {below : List (String × SettingValue)} {path names : List String}

/-- What is there, if there is something, has a leaf at the end of the path. -/
def LeafOf (existing : Option SettingValue) (path : List String) (leaf : SettingValue) : Prop :=
  ∃ value, existing = some value ∧ value.HasLeaf path leaf

/-- Neither of the paths leads on from the other, or is the other. -/
def Apart (path other : List String) : Prop := ¬ path <+: other ∧ ¬ other <+: path

theorem apart_cons {name : String} (apart : Apart (name :: path) (name :: names)) :
    Apart path names := by
  constructor
  · exact fun leads => apart.1 (List.cons_prefix_cons.mpr ⟨rfl, leads⟩)
  · exact fun leads => apart.2 (List.cons_prefix_cons.mpr ⟨rfl, leads⟩)

theorem hasLeaf_table_iff (nonempty : below ≠ []) :
    (table below).HasLeaf path leaf ↔ Sets below path leaf := by
  refine ⟨fun has => ⟨?_, has⟩, Sets.has⟩
  rintro rfl
  obtain ⟨rfl, isLeaf⟩ := hasLeaf_nil.mp has
  cases below with
  | nil => exact nonempty rfl
  | cons _ _ => cases isLeaf

theorem leafOf_iff_sets {existing : Option SettingValue}
    (inside : ∀ leaf, ¬ LeafOf existing [] leaf) :
    LeafOf existing path leaf ↔ Sets (entries existing) path leaf := by
  have ownLeaf (value : SettingValue) (same : existing = some value) : value.isLeaf = false :=
    Bool.eq_false_iff.mpr (fun isLeaf => inside value ⟨value, same, rfl, isLeaf⟩)
  cases existing with
  | none => exact ⟨nofun, fun sets => (not_sets_nil sets).elim⟩
  | some value =>
    cases value with
    | table below =>
      have nonempty : below ≠ [] := by
        rintro rfl
        cases ownLeaf _ rfl
      constructor
      · rintro ⟨_, same, has⟩
        cases same
        exact (hasLeaf_table_iff nonempty).mp has
      · exact fun sets => ⟨_, rfl, sets.has⟩
    | null | bool | integer | float | text | list => cases ownLeaf _ rfl

theorem insert_ne_nil (key : String) (value : SettingValue) (below : List (String × SettingValue)) :
    Entries.insert key value below ≠ [] := by
  intro empty
  have found := Entries.find?_insert_self key value below
  rw [empty] at found
  cases found

theorem sets_insert {name : String} {placed : SettingValue}
    (inner : ∀ rest last, placed.HasLeaf rest last ↔
      rest = names ∧ last = value ∨ LeafOf (Entries.find? below name) rest last) :
    Sets (Entries.insert name placed below) path leaf ↔
      path = name :: names ∧ leaf = value ∨ Sets below path leaf := by
  cases path with
  | nil => exact ⟨fun sets => (sets.inside rfl).elim, by rintro (⟨⟨⟩, _⟩ | sets); exact (sets.inside rfl).elim⟩
  | cons first rest =>
    rw [sets_cons, sets_cons]
    by_cases same : name = first
    · subst same
      rw [Entries.find?_insert_self]
      simpa [LeafOf] using inner rest leaf
    · rw [Entries.find?_insert_ne same]
      simp [Ne.symm same]

theorem mergeOver_none (isLeaf : value.isLeaf = true) : mergeOver none value = value := by
  cases value with
  | table entries =>
    cases entries with
    | nil => rfl
    | cons _ _ => cases isLeaf
  | null | bool | integer | float | text | list => rfl

/-- A leaf is placed beside those that leave room for it. -/
theorem hasLeaf_placeAt (isLeaf : value.isLeaf = true) (named : ∀ name ∈ names, IsName name)
    (existing : Option SettingValue)
    (room : ∀ path leaf, LeafOf existing path leaf → Apart path names) (path : List String)
    (leaf : SettingValue) :
    (placeAt value (names.map .name) existing).HasLeaf path leaf ↔
      path = names ∧ leaf = value ∨ LeafOf existing path leaf := by
  induction names generalizing existing path leaf with
  | nil =>
    cases existing with
    | none =>
      rw [List.map_nil, placeAt, mergeOver_none isLeaf, hasLeaf_of_isLeaf isLeaf]
      simp [LeafOf]
    | some there =>
      obtain ⟨path, last, has⟩ := exists_hasLeaf there
      exact absurd List.nil_prefix (room path last ⟨there, rfl, has⟩).2
  | cons name names ih =>
    obtain ⟨isName, named⟩ := List.forall_mem_cons.mp named
    -- no leaf ends on the way, so what is there is a table, or nothing
    have inside : ∀ last, ¬ LeafOf existing [] last :=
      fun last leafOf => (room [] last leafOf).1 List.nil_prefix
    have below : ∀ path last, LeafOf (Entries.find? (entries existing) name) path last →
        Apart path names := by
      rintro path last ⟨there, found, has⟩
      have sets : Sets (entries existing) (name :: path) last := sets_cons.mpr ⟨there, found, has⟩
      exact apart_cons (room _ last ((leafOf_iff_sets inside).mpr sets))
    have inner := ih named (Entries.find? (entries existing) name) below
    rw [List.map_cons, placeAt, isName.lowerKey_eq, hasLeaf_table_iff (insert_ne_nil _ _ _),
      sets_insert inner, leafOf_iff_sets inside]

/-- A leaf that is placed in a table is set besides those that leave room for it. -/
theorem sets_placeAt (isLeaf : value.isLeaf = true) (inside : names ≠ [])
    (named : ∀ name ∈ names, IsName name)
    (room : ∀ path leaf, Sets below path leaf → Apart path names) :
    ∃ after, placeAt value (names.map .name) (some (.table below)) = .table after ∧
      ∀ path leaf, Sets after path leaf ↔ path = names ∧ leaf = value ∨ Sets below path leaf := by
  cases names with
  | nil => exact absurd rfl inside
  | cons name names =>
    obtain ⟨isName, named⟩ := List.forall_mem_cons.mp named
    have roomBelow : ∀ path last, LeafOf (Entries.find? below name) path last →
        Apart path names := by
      rintro path last ⟨there, found, has⟩
      exact apart_cons (room _ last (sets_cons.mpr ⟨there, found, has⟩))
    have inner := hasLeaf_placeAt isLeaf named (Entries.find? below name) roomBelow
    rw [List.map_cons, placeAt, isName.lowerKey_eq]
    exact ⟨_, rfl, fun path leaf => sets_insert inner⟩

end SettingValue

/-- Leaves with the names that lead to them. -/
abbrev NamedLeaves := List (List String × SettingValue)

namespace NamedLeaves

open SettingValue (Sets Apart)

/-- The leaves with the paths that the names make. -/
def withPaths (leaves : NamedLeaves) : SettingLeaves :=
  leaves.map (fun (names, leaf) => (names.map .name, leaf))

/-- The leaves may be placed: each is one, in a table, and the path to it is made of names. -/
def Placeable (leaves : NamedLeaves) : Prop :=
  ∀ entry ∈ leaves, entry.1 ≠ [] ∧ (∀ name ∈ entry.1, IsName name) ∧ entry.2.isLeaf = true

/-- The leaves leave each other room. -/
def Spread (leaves : NamedLeaves) : Prop :=
  leaves.Pairwise (fun earlier later => Apart earlier.1 later.1)

theorem sets_foldl {leaves : NamedLeaves} (placeable : leaves.Placeable) (spread : leaves.Spread)
    {below : List (String × SettingValue)}
    (room : ∀ entry ∈ leaves, ∀ path leaf, Sets below path leaf → Apart path entry.1) :
    ∃ after, leaves.withPaths.foldl
        (fun root (path, value) => some (SettingValue.placeAt value path root))
        (some (.table below)) = some (.table after) ∧
      ∀ path leaf, Sets after path leaf ↔ (path, leaf) ∈ leaves ∨ Sets below path leaf := by
  induction leaves generalizing below with
  | nil => exact ⟨below, rfl, by simp⟩
  | cons entry rest ih =>
    obtain ⟨names, value⟩ := entry
    obtain ⟨⟨inside, named, isLeaf⟩, placeable⟩ := List.forall_mem_cons.mp placeable
    obtain ⟨here, spread⟩ := List.pairwise_cons.mp spread
    obtain ⟨roomHere, roomLater⟩ := List.forall_mem_cons.mp room
    obtain ⟨next, placed, nextSets⟩ := SettingValue.sets_placeAt isLeaf inside named roomHere
    have roomNext : ∀ entry ∈ rest, ∀ path leaf, Sets next path leaf → Apart path entry.1 := by
      intro entry member path leaf sets
      rcases (nextSets path leaf).mp sets with ⟨rfl, _⟩ | sets
      · exact here entry member
      · exact roomLater entry member path leaf sets
    obtain ⟨after, folded, afterSets⟩ := ih placeable spread roomNext
    refine ⟨after, ?_, fun path leaf => ?_⟩
    · rw [← folded, ← placed]
      rfl
    · rw [afterSets, nextSets, List.mem_cons, Prod.mk.injEq]
      tauto

/-- A table that is put together from leaves sets exactly these. -/
theorem sets_table_iff {leaves : NamedLeaves} (placeable : leaves.Placeable)
    (spread : leaves.Spread) {path : List String} {leaf : SettingValue} :
    Sets leaves.withPaths.table path leaf ↔ (path, leaf) ∈ leaves := by
  obtain ⟨after, folded, afterSets⟩ := sets_foldl placeable spread
    (fun _ _ _ _ sets => (SettingValue.not_sets_nil sets).elim)
  rw [SettingLeaves.table, folded, SettingValue.entries, afterSets]
  simp [SettingValue.not_sets_nil]

end NamedLeaves

end StackSwap
