import StackSwap.Proofs.Settings.Order
import StackSwap.Proofs.Settings.Reading

namespace StackSwap

namespace SettingSource

open SettingValue (Agrees)

variable {surroundings : Surroundings} {sources : List SettingSource}
  {source : SettingSource} {path : List String} {leaf : SettingValue}

/-- The table that is read from the source sets a leaf. -/
def Sets (surroundings : Surroundings) (source : SettingSource) (path : List String)
    (leaf : SettingValue) : Prop :=
  ∃ table, source.origin.read surroundings = .ok table ∧ SettingValue.Sets table path leaf

/-- The source sets no leaf at the path. -/
def Skips (surroundings : Surroundings) (source : SettingSource) (path : List String) : Prop :=
  ∀ leaf, ¬ source.Sets surroundings path leaf

/-- The sources are regular, and where one has a leaf, none has a table that is not empty. -/
structure Orderly (surroundings : Surroundings) (sources : List SettingSource) : Prop where
  regular : ∀ source ∈ sources, source.IsRegular surroundings
  agree : ∀ source ∈ sources, ∀ other ∈ sources, ∀ table below,
    source.origin.read surroundings = .ok table → other.origin.read surroundings = .ok below →
    Agrees table below

theorem Orderly.sublist {fewer : List SettingSource} (orderly : Orderly surroundings sources)
    (sub : fewer.Sublist sources) : Orderly surroundings fewer where
  regular source member := orderly.regular source (sub.subset member)
  agree source member other also :=
    orderly.agree source (sub.subset member) other (sub.subset also)

theorem Orderly.of_tables {tables : List (List (String × SettingValue))}
    (read : ∀ source ∈ sources, ∃ table ∈ tables, source.origin.read surroundings = .ok table)
    (regular : ∀ table ∈ tables, (SettingValue.table table).isRegular = true)
    (agree : ∀ table ∈ tables, ∀ below ∈ tables,
      ∀ entry ∈ SettingValue.leavesOfEntries table,
        (SettingValue.at? entry.1 (.table below)).all SettingValue.isLeaf = true) :
    Orderly surroundings sources := by
  constructor
  · intro source member
    obtain ⟨table, there, found⟩ := read source member
    exact ⟨table, found, SettingValue.regular_of_isRegular _ (regular table there)⟩
  · intro source member other also table below found foundBelow
    obtain ⟨_, there, again⟩ := read source member
    cases found.symm.trans again
    obtain ⟨_, thereBelow, again⟩ := read other also
    cases foundBelow.symm.trans again
    exact SettingValue.agrees_of_leaves (SettingValue.regular_of_isRegular _ (regular table there))
      (agree table there below thereBelow)

/-- The last of the sources that set a leaf at the path sets this one. -/
def LastSets (surroundings : Surroundings) (sources : List SettingSource) (path : List String)
    (leaf : SettingValue) : Prop :=
  ∃ before source after, sources = before ++ source :: after ∧
    source.Sets surroundings path leaf ∧ ∀ later ∈ after, later.Skips surroundings path

theorem lastSets_concat :
    LastSets surroundings (sources ++ [source]) path leaf ↔
      source.Sets surroundings path leaf ∨
        source.Skips surroundings path ∧ LastSets surroundings sources path leaf := by
  constructor
  · rintro ⟨before, setter, after, same, sets, later⟩
    cases after using List.reverseRecOn with
    | nil =>
      obtain ⟨_, last⟩ := List.append_inj' same rfl
      cases last
      exact .inl sets
    | append_singleton after last =>
      rw [← List.cons_append, ← List.append_assoc] at same
      obtain ⟨front, last⟩ := List.append_inj' same rfl
      cases last
      refine .inr ⟨later _ (by simp), before, setter, after, front, sets, ?_⟩
      exact fun source member => later source (List.mem_append_left _ member)
  · rintro (sets | ⟨skips, before, setter, after, rfl, sets, later⟩)
    · exact ⟨sources, source, [], rfl, sets, by simp⟩
    · refine ⟨before, setter, after ++ [source], by simp, sets, ?_⟩
      intro other member
      rcases List.mem_append.mp member with earlier | last
      · exact later other earlier
      · exact List.mem_singleton.mp last ▸ skips

theorem LastSets.exists_sets (last : LastSets surroundings sources path leaf) :
    ∃ source ∈ sources, source.Sets surroundings path leaf := by
  obtain ⟨before, source, after, rfl, sets, _⟩ := last
  exact ⟨source, by simp, sets⟩

/-- After some sources the leaves are those that the last ones of them set. -/
theorem foldlM_readOver (regular : ∀ source ∈ sources, source.IsRegular surroundings) :
    ∃ leaves : NamedLeaves, sources.foldlM (readOver surroundings) [] = .ok leaves.withPaths ∧
      (leaves.map Prod.fst).Nodup ∧
      ∀ path leaf, (path, leaf) ∈ leaves ↔ LastSets surroundings sources path leaf := by
  induction sources using List.reverseRecOn with
  | nil =>
    refine ⟨[], rfl, List.nodup_nil, fun path leaf => ⟨nofun, fun last => ?_⟩⟩
    obtain ⟨_, member, _⟩ := last.exists_sets
    cases member
  | append_singleton sources source ih =>
    obtain ⟨leaves, folded, distinct, members⟩ :=
      ih (fun other member => regular other (List.mem_append_left _ member))
    obtain ⟨table, read, regular⟩ := regular source (by simp)
    have sets (path : List String) (leaf : SettingValue) :
        source.Sets surroundings path leaf ↔
          (path, leaf) ∈ SettingValue.leavesOfEntries table := by
      rw [regular.mem_leavesOfEntries_iff]
      constructor
      · rintro ⟨other, again, sets⟩
        cases read.symm.trans again
        exact sets
      · exact fun sets => ⟨table, read, sets⟩
    refine ⟨leaves.setAll (SettingValue.leavesOfEntries table), ?_,
      NamedLeaves.nodup_setAll distinct _, fun path leaf => ?_⟩
    · have here := readOver_eq_ok_iff.mpr
        ⟨_, leaves?_of_regular read regular, NamedLeaves.withPaths_setAll leaves _⟩
      rw [List.foldlM_append, folded, ok_bind, List.foldlM_cons, here]
      rfl
    · rw [lastSets_concat, NamedLeaves.mem_setAll, sets, members]
      · simp only [Skips, sets]
      · intro path leaf other here there
        exact (regular.mem_leavesOfEntries_iff.mp here).unique
          (regular.mem_leavesOfEntries_iff.mp there)

/-- The source at the place sets the leaf, and counts most among those that set one at the path: no
other has a higher priority, and none with the same priority was added later. -/
structure Prevails (surroundings : Surroundings) (sources : List SettingSource)
    (path : List String) (leaf : SettingValue) (place : Nat) (source : SettingSource) : Prop where
  listed : sources[place]? = some source
  sets : source.Sets surroundings path leaf
  highest : ∀ position other last, sources[position]? = some other →
    other.Sets surroundings path last →
    other.priority < source.priority ∨ other.priority = source.priority ∧ position ≤ place

/-- The last source to be read that sets a leaf is the one that counts most. -/
theorem lastSets_ordered_iff :
    LastSets surroundings (ordered sources) path leaf ↔
      ∃ place source, Prevails surroundings sources path leaf place source := by
  constructor
  · rintro ⟨before, source, after, split, sets, later⟩
    obtain ⟨place, listed, below⟩ := place_of_split split
    refine ⟨place, source, listed, sets, fun position other last there also => ?_⟩
    rcases below position other there with behind | rfl | lower | ⟨same, earlier⟩
    · exact absurd also (later other behind last)
    · cases listed.symm.trans there
      exact .inr ⟨rfl, le_rfl⟩
    · exact .inl lower
    · exact .inr ⟨same, earlier.le⟩
  · rintro ⟨place, source, there, sets, highest⟩
    obtain ⟨before, after, split, above⟩ := split_of_place there
    refine ⟨before, source, after, split, sets, ?_⟩
    intro other member last also
    obtain ⟨position, listed, above⟩ := above other member
    have lower := highest position other last listed also
    simp only [Below] at above
    omega

/-- The path to a leaf of a source does not lead on to a leaf of one of the sources. -/
theorem Orderly.not_prefix (orderly : Orderly surroundings sources) {other : SettingSource}
    (member : source ∈ sources) (also : other ∈ sources) {longer : List String}
    {last : SettingValue} (sets : source.Sets surroundings path leaf)
    (longerSets : other.Sets surroundings longer last) (different : path ≠ longer) :
    ¬ path <+: longer := by
  obtain ⟨table, read, sets⟩ := sets
  obtain ⟨below, belowRead, longerSets⟩ := longerSets
  have agree := orderly.agree source member other also table below read belowRead
  exact fun leads => different (agree.eq_of_prefix sets longerSets leads)

/-- The merged settings set the leaves of the sources that count most. -/
theorem merged_sets (nonempty : sources ≠ []) (orderly : Orderly surroundings sources) :
    ∃ merged, SettingSource.merged surroundings sources = .ok merged ∧
      ∀ path leaf, SettingValue.Sets merged path leaf ↔
        LastSets surroundings (ordered sources) path leaf := by
  have regular : ∀ source ∈ ordered sources, source.IsRegular surroundings :=
    fun source member => orderly.regular source (mem_ordered_iff.mp member)
  obtain ⟨leaves, folded, distinct, members⟩ := foldlM_readOver regular
  -- every leaf has a source that sets it, which says of what kind it is and which paths it meets
  have setter {entry : List String × SettingValue} (member : entry ∈ leaves) :
      ∃ source ∈ sources, source.Sets surroundings entry.1 entry.2 := by
    obtain ⟨source, listed, sets⟩ := ((members _ _).mp member).exists_sets
    exact ⟨source, mem_ordered_iff.mp listed, sets⟩
  have placeable : leaves.Placeable := by
    intro entry member
    obtain ⟨source, listed, table, read, sets⟩ := setter member
    obtain ⟨_, again, regular⟩ := orderly.regular source listed
    cases read.symm.trans again
    exact ⟨sets.inside, regular.isName sets.has, sets.has.isLeaf⟩
  have spread : leaves.Spread := by
    refine (List.pairwise_map.mp distinct).imp_of_mem ?_
    intro one other member also different
    obtain ⟨source, listed, sets⟩ := setter member
    obtain ⟨second, secondListed, secondSets⟩ := setter also
    exact ⟨orderly.not_prefix listed secondListed sets secondSets different,
      orderly.not_prefix secondListed listed secondSets sets different.symm⟩
  refine ⟨leaves.withPaths.table, ?_, fun path leaf => ?_⟩
  · exact merged_eq_ok_iff.mpr ⟨nonempty, _, folded, rfl⟩
  · rw [NamedLeaves.sets_table_iff placeable spread, members]

theorem exists_lastSets (member : source ∈ sources) (sets : source.Sets surroundings path leaf) :
    ∃ last, LastSets surroundings sources path last := by
  induction sources using List.reverseRecOn with
  | nil => cases member
  | append_singleton sources final ih =>
    by_cases skips : final.Skips surroundings path
    · rcases List.mem_append.mp member with earlier | here
      · obtain ⟨last, lastSets⟩ := ih earlier
        exact ⟨last, lastSets_concat.mpr (.inr ⟨skips, lastSets⟩)⟩
      · cases List.mem_singleton.mp here
        exact absurd sets (skips leaf)
    · obtain ⟨last, sets⟩ := not_forall_not.mp skips
      exact ⟨last, lastSets_concat.mpr (.inl sets)⟩

/-- Where a place is in a list before another place in it is left out. -/
def placeBefore (left place : Nat) : Nat := if place < left then place else place + 1

theorem getElem?_placeBefore (left place : Nat) :
    sources[placeBefore left place]? = (sources.eraseIdx left)[place]? := by
  rw [List.getElem?_eraseIdx, placeBefore, apply_ite (sources[·]?)]

theorem placeBefore_le_iff {left place other : Nat} :
    placeBefore left place ≤ placeBefore left other ↔ place ≤ other := by
  unfold placeBefore
  split <;> split <;> omega

theorem exists_placeBefore {left place : Nat} (different : place ≠ left) :
    ∃ before, placeBefore left before = place := by
  unfold placeBefore
  by_cases lower : place < left
  · exact ⟨place, if_pos lower⟩
  · exact ⟨place - 1, by rw [if_neg (by omega)]; omega⟩

/-- A source that skips a path does not matter for who counts most there. -/
theorem exists_prevails_eraseIdx {left : Nat} (listed : sources[left]? = some source)
    (skips : source.Skips surroundings path) :
    (∃ place other, Prevails surroundings (sources.eraseIdx left) path leaf place other) ↔
      ∃ place other, Prevails surroundings sources path leaf place other := by
  have other {place : Nat} {setter : SettingSource} {last : SettingValue}
      (there : sources[place]? = some setter) (sets : setter.Sets surroundings path last) :
      ∃ before, placeBefore left before = place := by
    refine exists_placeBefore ?_
    rintro rfl
    cases listed.symm.trans there
    exact skips last sets
  constructor
  · rintro ⟨place, setter, there, sets, highest⟩
    rw [← getElem?_placeBefore] at there
    refine ⟨placeBefore left place, setter, there, sets, fun position second last also again => ?_⟩
    obtain ⟨before, rfl⟩ := other also again
    rw [placeBefore_le_iff]
    exact highest before second last (getElem?_placeBefore left before ▸ also) again
  · rintro ⟨place, setter, there, sets, highest⟩
    obtain ⟨place, rfl⟩ := other there sets
    rw [getElem?_placeBefore] at there
    refine ⟨place, setter, there, sets, fun position second last also again => ?_⟩
    rw [← placeBefore_le_iff]
    exact highest _ second last (getElem?_placeBefore left position ▸ also) again

/-- The merged settings have, at each path where a source sets a leaf, the leaf of the source that
counts most among these, and no others. At paths that a source skips they are as without it. -/
theorem merged_prevails (nonempty : sources ≠ []) (orderly : Orderly surroundings sources) :
    ∃ merged, SettingSource.merged surroundings sources = .ok merged ∧
      (∀ path leaf, SettingValue.Sets merged path leaf ↔
        ∃ place source, Prevails surroundings sources path leaf place source) ∧
      (∀ source ∈ sources, ∀ path leaf, source.Sets surroundings path leaf →
        ∃ last, SettingValue.Sets merged path last) ∧
      ∀ place source without path leaf, sources[place]? = some source →
        source.Skips surroundings path →
        SettingSource.merged surroundings (sources.eraseIdx place) = .ok without →
        (SettingValue.Sets merged path leaf ↔ SettingValue.Sets without path leaf) := by
  obtain ⟨table, merges, sets⟩ := merged_sets nonempty orderly
  refine ⟨table, merges, fun path leaf => (sets path leaf).trans lastSets_ordered_iff, ?_, ?_⟩
  · intro source member path leaf also
    obtain ⟨last, lastSets⟩ := exists_lastSets (mem_ordered_iff.mpr member) also
    exact ⟨last, (sets path last).mpr lastSets⟩
  · intro place source without path leaf listed skips others
    have remaining : sources.eraseIdx place ≠ [] := (merged_eq_ok_iff.mp others).1
    obtain ⟨_, again, othersSet⟩ :=
      merged_sets remaining (orderly.sublist (List.eraseIdx_sublist ..))
    cases others.symm.trans again
    rw [sets, othersSet, lastSets_ordered_iff, lastSets_ordered_iff,
      exists_prevails_eraseIdx listed skips]

/-- One of two limits, and both of them with a mode. -/
def limitTables : List (List (String × SettingValue)) :=
  [[("limits", .table [("high", .integer 9)])],
   [("limits", .table [("high", .integer 2), ("low", .integer 1)]), ("mode", .text "fall-back")]]

/-- The one limit is added first and counts more. -/
def limitSources : List SettingSource :=
  List.zipWith (fun table priority => ⟨.inCode "limits" (.ok table), priority⟩) limitTables [300, 100]

theorem merged_prevails_limits :
    limitSources ≠ [] ∧ Orderly {} limitSources ∧
      ∃ merged, SettingSource.merged {} limitSources = .ok merged ∧
        merged = [("limits", .table [("high", .integer 9), ("low", .integer 1)]),
          ("mode", .text "fall-back")] ∧
        ∀ path leaf, SettingValue.Sets merged path leaf ↔
          ∃ place source, Prevails {} limitSources path leaf place source := by
  have nonempty : limitSources ≠ [] := List.cons_ne_nil _ _
  have orderly : Orderly {} limitSources := by
    have read : ∀ source ∈ limitSources, ∃ table ∈ limitTables,
        source.origin.read {} = .ok table := by
      simp [limitSources, limitTables, SettingOrigin.read]
    exact .of_tables read (by decide +kernel) (by decide +kernel)
  obtain ⟨merged, merges, sets, _⟩ := merged_prevails nonempty orderly
  refine ⟨nonempty, orderly, merged, merges, ?_, sets⟩
  exact (Except.ok.inj (by rw [← merges]; rfl)).symm

end SettingSource

end StackSwap
