import Mathlib.Data.List.TakeWhile
import StackSwap.Proofs.Entries
import StackSwap.Proofs.Sequence
import StackSwap.Settings.Merge

namespace StackSwap

/-- A name in lower case: letters, digits, blanks, underscores and hyphens of ASCII. -/
structure IsName (key : String) : Prop where
  nonempty : key ≠ ""
  chars : ∀ char ∈ key.toList, KeyPath.isNameChar char = true ∧ char.isUpper = false

theorem isName_iff {key : String} :
    IsName key ↔ key ≠ "" ∧
      key.toList.all (fun char => KeyPath.isNameChar char && !char.isUpper) = true := by
  simp only [List.all_eq_true, Bool.and_eq_true, Bool.not_eq_true']
  exact ⟨fun name => ⟨name.nonempty, name.chars⟩, fun checked => ⟨checked.1, checked.2⟩⟩

instance {key : String} : Decidable (IsName key) := decidable_of_iff _ isName_iff.symm

namespace IsName

variable {key : String}

theorem lowercase_eq {char : Char} (ofName : KeyPath.isNameChar char = true)
    (lower : char.isUpper = false) : Text.lowercase char = [char] := by
  have ascii : char.toNat < 0x80 := by
    unfold KeyPath.isNameChar Char.isAlphanum Char.isAlpha Char.isUpper Char.isLower
      Char.isDigit at ofName
    simp only [Bool.or_eq_true, Bool.and_eq_true, decide_eq_true_eq] at ofName
    rcases ofName with ((((⟨_, last⟩ | ⟨_, last⟩) | ⟨_, last⟩) | rfl) | rfl) | rfl
    · exact Nat.lt_of_le_of_lt (UInt32.le_iff_toNat_le.mp last) (by decide)
    · exact Nat.lt_of_le_of_lt (UInt32.le_iff_toNat_le.mp last) (by decide)
    · exact Nat.lt_of_le_of_lt (UInt32.le_iff_toNat_le.mp last) (by decide)
    · decide
    · decide
    · decide
  have same : char.toLower = char := by
    unfold Char.toLower
    unfold Char.isUpper at lower
    grind
  rw [Text.lowercase, if_pos ascii, same]

theorem lowerKey_eq (name : IsName key) : SettingValue.lowerKey key = key := by
  have each : ∀ char ∈ key.toList, Text.lowercase char = [char] :=
    fun char member => lowercase_eq (name.chars char member).1 (name.chars char member).2
  rw [SettingValue.lowerKey, List.flatMap_congr each, List.flatMap_singleton', String.ofList_toList]

theorem ofKey?_eq (name : IsName key) : KeyPath.ofKey? key = some [.name key] := by
  have all : ∀ char ∈ key.toList, KeyPath.isNameChar char = true :=
    fun char member => (name.chars char member).1
  have taken := List.takeWhile_eq_self_iff.mpr all
  have rest := List.dropWhile_eq_nil_iff.mpr all
  have nonempty : key.toList.isEmpty = false := by simpa using name.nonempty
  simp [KeyPath.ofKey?, KeyPath.name?, taken, rest, nonempty, KeyPath.steps?]

end IsName

theorem KeyPath.ofKeys?_eq {names : List String} (all : ∀ name ∈ names, IsName name) :
    KeyPath.ofKeys? names = some (names.map .name) := by
  have each : names.mapM KeyPath.ofKey? = some (names.map (fun name => [.name name])) := by
    rw [mapM_congr (fun name member => (all name member).ofKey?_eq)]
    exact List.mapM_pure
  rw [KeyPath.ofKeys?, each, Option.map_some, ← List.flatMap_def, ← List.map_eq_flatMap]

namespace SettingValue

/-- Whether the value is not taken apart: it is no table, or an empty one. -/
def isLeaf : SettingValue → Bool
  | .table (_ :: _) => false
  | _ => true

/-- The value at the end of a path. -/
def at? : List String → SettingValue → Option SettingValue
  | [], value => some value
  | name :: names, .table entries => (Entries.find? entries name).bind (at? names)
  | _ :: _, _ => none

/-- The names lead to a leaf of the value. -/
structure HasLeaf (value : SettingValue) (names : List String) (leaf : SettingValue) : Prop where
  found : at? names value = some leaf
  isLeaf : leaf.isLeaf = true

/-- The tables in the value have distinct keys, which are names. -/
inductive Regular : SettingValue → Prop where
  | leaf {value : SettingValue} (isLeaf : value.isLeaf = true) : Regular value
  | table {entries : List (String × SettingValue)} (distinct : (Entries.keys entries).Nodup)
    (named : ∀ entry ∈ entries, IsName entry.1) (below : ∀ entry ∈ entries, Regular entry.2) :
    Regular (.table entries)

mutual

/-- Whether the tables in the value have distinct keys, which are names. -/
def isRegular : SettingValue → Bool
  | .table entries => decide (Entries.keys entries).Nodup && areRegular entries
  | _ => true
termination_by structural value => value

/-- Whether the keys are names and the values are regular. -/
def areRegular : List (String × SettingValue) → Bool
  | [] => true
  | (key, value) :: rest => decide (IsName key) && isRegular value && areRegular rest
termination_by structural entries => entries

end

mutual

theorem regular_of_isRegular : ∀ value : SettingValue, value.isRegular = true → value.Regular
  | .table entries, checked => by
    simp only [isRegular, Bool.and_eq_true, decide_eq_true_eq] at checked
    have each := regular_of_areRegular entries checked.2
    exact .table checked.1 (fun entry member => (each entry member).1)
      (fun entry member => (each entry member).2)
  | .null, _ | .bool _, _ | .integer _, _ | .float _, _ | .text _, _ | .list _, _ => .leaf rfl

theorem regular_of_areRegular : ∀ entries : List (String × SettingValue),
    areRegular entries = true → ∀ entry ∈ entries, IsName entry.1 ∧ entry.2.Regular
  | [], _ => nofun
  | (key, value) :: rest, checked => by
    simp only [areRegular, Bool.and_eq_true, decide_eq_true_eq] at checked
    exact List.forall_mem_cons.mpr
      ⟨⟨checked.1.1, regular_of_isRegular value checked.1.2⟩, regular_of_areRegular rest checked.2⟩

end

variable {value leaf : SettingValue} {entries : List (String × SettingValue)} {names : List String}

theorem hasLeaf_nil : value.HasLeaf [] leaf ↔ value = leaf ∧ leaf.isLeaf = true := by
  constructor
  · rintro ⟨found, isLeaf⟩
    exact ⟨Option.some.inj found, isLeaf⟩
  · rintro ⟨rfl, isLeaf⟩
    exact ⟨rfl, isLeaf⟩

theorem hasLeaf_table_cons {name : String} :
    (table entries).HasLeaf (name :: names) leaf ↔
      ∃ below, Entries.find? entries name = some below ∧ below.HasLeaf names leaf := by
  constructor
  · rintro ⟨found, isLeaf⟩
    obtain ⟨below, here, later⟩ := Option.bind_eq_some_iff.mp found
    exact ⟨below, here, later, isLeaf⟩
  · rintro ⟨below, here, found, isLeaf⟩
    exact ⟨Option.bind_eq_some_iff.mpr ⟨below, here, found⟩, isLeaf⟩

theorem at?_of_isLeaf (isLeaf : value.isLeaf = true) {name : String} :
    at? (name :: names) value = none := by
  cases value with
  | table entries =>
    cases entries with
    | nil => rfl
    | cons _ _ => cases isLeaf
  | null | bool | integer | float | text | list => rfl

theorem hasLeaf_of_isLeaf (isLeaf : value.isLeaf = true) :
    value.HasLeaf names leaf ↔ names = [] ∧ leaf = value := by
  cases names with
  | nil =>
    rw [hasLeaf_nil]
    constructor
    · rintro ⟨rfl, _⟩
      exact ⟨rfl, rfl⟩
    · rintro ⟨_, rfl⟩
      exact ⟨rfl, isLeaf⟩
  | cons name names =>
    constructor
    · rintro ⟨found, _⟩
      rw [at?_of_isLeaf isLeaf] at found
      cases found
    · rintro ⟨impossible, _⟩
      cases impossible

theorem at?_append (names rest : List String) (value : SettingValue) :
    at? (names ++ rest) value = (at? names value).bind (at? rest) := by
  induction names generalizing value with
  | nil => rfl
  | cons name names ih =>
    cases value with
    | table entries =>
      rw [List.cons_append, at?, at?, Option.bind_assoc]
      exact congrArg _ (funext ih)
    | null | bool | integer | float | text | list => rfl

theorem exists_hasLeaf : ∀ value : SettingValue, ∃ names leaf, value.HasLeaf names leaf
  | .table ((name, first) :: rest) => by
    obtain ⟨names, leaf, has⟩ := exists_hasLeaf first
    have found : Entries.find? ((name, first) :: rest) name = some first := by simp [Entries.find?]
    exact ⟨name :: names, leaf, hasLeaf_table_cons.mpr ⟨first, found, has⟩⟩
  | .table [] => ⟨[], .table [], rfl, rfl⟩
  | .null => ⟨[], .null, rfl, rfl⟩
  | .bool value => ⟨[], .bool value, rfl, rfl⟩
  | .integer value => ⟨[], .integer value, rfl, rfl⟩
  | .float value => ⟨[], .float value, rfl, rfl⟩
  | .text value => ⟨[], .text value, rfl, rfl⟩
  | .list items => ⟨[], .list items, rfl, rfl⟩

theorem mem_leavesOfEntries {entries : List (String × SettingValue)} :
    (names, leaf) ∈ leavesOfEntries entries ↔
      ∃ name rest value, names = name :: rest ∧ (name, value) ∈ entries ∧
        (rest, leaf) ∈ leaves value := by
  induction entries with
  | nil => simp [leavesOfEntries]
  | cons entry others ih =>
    obtain ⟨key, first⟩ := entry
    rw [leavesOfEntries, List.mem_append, ih]
    constructor
    · rintro (here | ⟨name, rest, value, same, member, inside⟩)
      · obtain ⟨⟨rest, inner⟩, inside, same⟩ := List.mem_map.mp here
        cases same
        exact ⟨key, rest, first, rfl, List.mem_cons_self .., inside⟩
      · exact ⟨name, rest, value, same, List.mem_cons_of_mem _ member, inside⟩
    · rintro ⟨name, rest, value, rfl, member, inside⟩
      rcases List.mem_cons.mp member with here | later
      · cases here
        exact .inl (List.mem_map.mpr ⟨_, inside, rfl⟩)
      · exact .inr ⟨name, rest, value, rfl, later, inside⟩

theorem leaves_of_isLeaf (isLeaf : value.isLeaf = true) : leaves value = [([], value)] := by
  cases value with
  | table entries =>
    cases entries with
    | nil => rfl
    | cons _ _ => cases isLeaf
  | null | bool | integer | float | text | list => rfl

/-- A regular value is taken apart into the leaves that it has. -/
theorem Regular.mem_leaves_iff (regular : value.Regular) :
    (names, leaf) ∈ leaves value ↔ value.HasLeaf names leaf := by
  induction regular generalizing names leaf with
  | @leaf value isLeaf =>
    rw [leaves_of_isLeaf isLeaf, hasLeaf_of_isLeaf isLeaf]
    simp
  | @table entries distinct named below ih =>
    cases entries with
    | nil =>
      rw [leaves_of_isLeaf rfl, hasLeaf_of_isLeaf rfl]
      simp
    | cons entry others =>
      have taken : leaves (.table (entry :: others)) = leavesOfEntries (entry :: others) := rfl
      rw [taken, mem_leavesOfEntries]
      constructor
      · rintro ⟨name, rest, inner, rfl, member, inside⟩
        exact hasLeaf_table_cons.mpr
          ⟨inner, (Entries.find?_eq_some_iff distinct).mpr member, (ih _ member).mp inside⟩
      · intro has
        cases names with
        | nil =>
          obtain ⟨rfl, isLeaf⟩ := hasLeaf_nil.mp has
          cases isLeaf
        | cons name rest =>
          obtain ⟨inner, found, inside⟩ := hasLeaf_table_cons.mp has
          have member := Entries.mem_of_find? found
          exact ⟨name, rest, inner, rfl, member, (ih _ member).mpr inside⟩

theorem Regular.isName (regular : value.Regular) (has : value.HasLeaf names leaf) :
    ∀ name ∈ names, IsName name := by
  induction regular generalizing names with
  | leaf isLeaf =>
    obtain ⟨rfl, _⟩ := (hasLeaf_of_isLeaf isLeaf).mp has
    simp
  | table distinct named below ih =>
    cases names with
    | nil => simp
    | cons name rest =>
      obtain ⟨inner, found, inside⟩ := hasLeaf_table_cons.mp has
      have member := Entries.mem_of_find? found
      exact List.forall_mem_cons.mpr ⟨named _ member, ih _ member inside⟩

/-- The table sets a leaf. -/
structure Sets (entries : List (String × SettingValue)) (names : List String)
    (leaf : SettingValue) : Prop where
  inside : names ≠ []
  has : (table entries).HasLeaf names leaf

theorem Sets.unique {other : SettingValue} (sets : Sets entries names leaf)
    (also : Sets entries names other) : leaf = other :=
  Option.some.inj (sets.has.found.symm.trans also.has.found)

theorem sets_cons {name : String} :
    Sets entries (name :: names) leaf ↔
      ∃ below, Entries.find? entries name = some below ∧ below.HasLeaf names leaf :=
  ⟨fun sets => hasLeaf_table_cons.mp sets.has,
    fun has => ⟨List.cons_ne_nil _ _, hasLeaf_table_cons.mpr has⟩⟩

theorem not_sets_nil : ¬ Sets [] names leaf := by
  rintro ⟨inside, has⟩
  exact inside ((hasLeaf_of_isLeaf rfl).mp has).1

theorem Regular.mem_leavesOfEntries_iff (regular : (SettingValue.table entries).Regular) :
    (names, leaf) ∈ leavesOfEntries entries ↔ Sets entries names leaf := by
  cases entries with
  | nil => simp [leavesOfEntries, not_sets_nil]
  | cons entry others =>
    have taken : leavesOfEntries (entry :: others) = leaves (.table (entry :: others)) := rfl
    rw [taken, regular.mem_leaves_iff]
    refine ⟨fun has => ⟨?_, has⟩, Sets.has⟩
    rintro rfl
    obtain ⟨rfl, impossible⟩ := hasLeaf_nil.mp has
    cases impossible

/-- Where the first table has a leaf, the other has no table that is not empty. -/
def Agrees (entries other : List (String × SettingValue)) : Prop :=
  ∀ names leaf value, Sets entries names leaf → at? names (.table other) = some value →
    value.isLeaf = true

/-- For a regular table it is enough to look at the leaves into which it is taken apart. -/
theorem agrees_of_leaves {other : List (String × SettingValue)}
    (regular : (SettingValue.table entries).Regular)
    (all : ∀ entry ∈ leavesOfEntries entries, (at? entry.1 (.table other)).all isLeaf = true) :
    Agrees entries other := by
  intro names leaf value sets found
  have isLeaf := all (names, leaf) (regular.mem_leavesOfEntries_iff.mpr sets)
  rwa [found] at isLeaf

theorem Agrees.eq_of_prefix {other : List (String × SettingValue)} (agrees : Agrees entries other)
    {longer : List String} {last : SettingValue} (sets : Sets entries names leaf)
    (also : Sets other longer last) (leads : names <+: longer) : names = longer := by
  obtain ⟨rest, rfl⟩ := leads
  have found := also.has.found
  rw [at?_append] at found
  obtain ⟨value, here, later⟩ := Option.bind_eq_some_iff.mp found
  have isLeaf := agrees names leaf value sets here
  cases rest with
  | nil => exact (List.append_nil names).symm
  | cons name rest =>
    rw [at?_of_isLeaf isLeaf] at later
    cases later

end SettingValue

end StackSwap
