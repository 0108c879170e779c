import StackSwap.Proofs.Settings.Precedence

/-! Values that stay in whatever order leaves are set and put together, as sources and overrides are
kept in tables without an order. -/

namespace StackSwap

namespace SettingValue

variable {leaf : SettingValue} {path : KeyPath} {names : List String}

/-- The path leads elsewhere than the names: at some step it takes another name. -/
inductive LeadsElsewhere : KeyPath → List String → Prop where
  | here {other name : String} {path : KeyPath} {names : List String}
    (different : lowerKey other ≠ name) :
    LeadsElsewhere (.name other :: path) (name :: names)
  | later {other name : String} {path : KeyPath} {names : List String}
    (elsewhere : LeadsElsewhere path names) :
    LeadsElsewhere (.name other :: path) (name :: names)

theorem LeadsElsewhere.of_apart {other : List String} (named : ∀ name ∈ other, IsName name)
    (apart : Apart other names) : LeadsElsewhere (other.map .name) names := by
  induction other generalizing names with
  | nil => exact absurd List.nil_prefix apart.1
  | cons first rest ih =>
    obtain ⟨here, named⟩ := List.forall_mem_cons.mp named
    cases names with
    | nil => exact absurd List.nil_prefix apart.2
    | cons name names =>
      by_cases same : first = name
      · subst same
        exact .later (ih named (apart_cons apart))
      · exact .here (by rwa [here.lowerKey_eq])

theorem LeadsElsewhere.irrefl (named : ∀ name ∈ names, IsName name) :
    ¬ LeadsElsewhere (names.map .name) names := by
  intro elsewhere
  induction names with
  | nil => cases elsewhere
  | cons name names ih =>
    obtain ⟨here, named⟩ := List.forall_mem_cons.mp named
    cases elsewhere with
    | here different => exact different here.lowerKey_eq
    | later elsewhere => exact ih named elsewhere

/-- Nothing is found behind the names, or this leaf. -/
def ClearAt (names : List String) (leaf : SettingValue) (existing : Option SettingValue) : Prop :=
  ∀ found, existing.bind (at? names) = some found → found = leaf

theorem at?_cons {name : String} (existing : Option SettingValue) :
    existing.bind (at? (name :: names)) =
      (Entries.find? (entries existing) name).bind (at? names) := by
  cases existing with
  | none => rfl
  | some value => cases value <;> rfl

theorem at?_placeAt (isLeaf : leaf.isLeaf = true) (named : ∀ name ∈ names, IsName name)
    {existing : Option SettingValue} (clear : ClearAt names leaf existing) :
    at? names (placeAt leaf (names.map .name) existing) = some leaf := by
  induction names generalizing existing with
  | nil =>
    have merged : mergeOver existing leaf = leaf := by
      cases existing with
      | none => exact mergeOver_none isLeaf
      | some there =>
        rw [clear there rfl]
        cases leaf with
        | table entries =>
          cases entries with
          | nil => rfl
          | cons _ _ => cases isLeaf
        | null | bool | integer | float | text | list => rfl
    exact congrArg some merged
  | cons name names ih =>
    obtain ⟨here, named⟩ := List.forall_mem_cons.mp named
    rw [List.map_cons, placeAt, here.lowerKey_eq, at?, Entries.find?_insert_self]
    exact ih named (fun found inner => clear found ((at?_cons existing).trans inner))

/-- What is found, or not, stays so when a value is placed elsewhere. -/
theorem at?_placeAt_of_elsewhere (value : SettingValue) (elsewhere : LeadsElsewhere path names)
    (existing : Option SettingValue) :
    at? names (placeAt value path existing) = existing.bind (at? names) := by
  induction elsewhere generalizing existing with
  | here different => rw [placeAt, at?, Entries.find?_insert_ne different, at?_cons]
  | @later other name path names elsewhere ih =>
    rw [placeAt, at?, at?_cons]
    by_cases same : lowerKey other = name
    · subst same
      rw [Entries.find?_insert_self]
      exact ih _
    · rw [Entries.find?_insert_ne same]

end SettingValue

namespace SettingLeaves

open SettingValue (LeadsElsewhere ClearAt at? placeAt)

variable {leaves own order : SettingLeaves} {names : List String} {leaf : SettingValue}

/-- Every leaf is at the end of the names or elsewhere. -/
def AgreesAt (leaves : SettingLeaves) (names : List String) : Prop :=
  ∀ entry ∈ leaves, entry.1 = names.map .name ∨ LeadsElsewhere entry.1 names

/-- Only this leaf is at the end of the names, if any is, and the others are elsewhere. -/
def Spares (leaves : SettingLeaves) (names : List String) (leaf : SettingValue) : Prop :=
  ∀ entry ∈ leaves, entry = (names.map .name, leaf) ∨ LeadsElsewhere entry.1 names

/-- This leaf and no other is at the end of the names, and the others are elsewhere. -/
structure Holds (leaves : SettingLeaves) (names : List String) (leaf : SettingValue) : Prop where
  there : (names.map .name, leaf) ∈ leaves
  spares : leaves.Spares names leaf

theorem Spares.agrees (spares : leaves.Spares names leaf) : leaves.AgreesAt names :=
  fun entry member => (spares entry member).imp_left (congrArg Prod.fst)

theorem Holds.perm (holds : leaves.Holds names leaf) (perm : order.Perm leaves) :
    order.Holds names leaf where
  there := perm.mem_iff.mpr holds.there
  spares := fun entry member => holds.spares entry (perm.mem_iff.mp member)

theorem mem_set {path : KeyPath} {value : SettingValue} {entry : KeyPath × SettingValue} :
    entry ∈ leaves.set path value ↔ entry ∈ leaves ∧ entry.1 ≠ path ∨ entry = (path, value) := by
  simp [set]

theorem AgreesAt.set {path : KeyPath} (agrees : leaves.AgreesAt names)
    (here : path = names.map .name ∨ LeadsElsewhere path names) (value : SettingValue) :
    (leaves.set path value).AgreesAt names := by
  intro other member
  rcases mem_set.mp member with ⟨old, _⟩ | rfl
  · exact agrees other old
  · exact here

theorem AgreesAt.setAll (agrees : leaves.AgreesAt names) (also : own.AgreesAt names) :
    (leaves.setAll own).AgreesAt names := by
  induction own generalizing leaves with
  | nil => exact agrees
  | cons entry rest ih =>
    obtain ⟨here, also⟩ := List.forall_mem_cons.mp also
    exact ih (agrees.set here entry.2) also

theorem AgreesAt.holds_set (agrees : leaves.AgreesAt names) (leaf : SettingValue) :
    (leaves.set (names.map .name) leaf).Holds names leaf where
  there := mem_set.mpr (.inr rfl)
  spares := by
    intro entry member
    rcases mem_set.mp member with ⟨old, different⟩ | same
    · exact .inr ((agrees entry old).resolve_left different)
    · exact .inl same

theorem Holds.set_elsewhere (named : ∀ name ∈ names, IsName name) {path : KeyPath}
    (holds : leaves.Holds names leaf) (elsewhere : LeadsElsewhere path names)
    (value : SettingValue) : (leaves.set path value).Holds names leaf where
  there := by
    refine mem_set.mpr (.inl ⟨holds.there, ?_⟩)
    rintro rfl
    exact LeadsElsewhere.irrefl named elsewhere
  spares := by
    intro entry member
    rcases mem_set.mp member with ⟨old, _⟩ | rfl
    · exact holds.spares entry old
    · exact .inr elsewhere

theorem Holds.setAll (named : ∀ name ∈ names, IsName name) (holds : leaves.Holds names leaf)
    (spares : own.Spares names leaf) : (leaves.setAll own).Holds names leaf := by
  induction own generalizing leaves with
  | nil => exact holds
  | cons entry rest ih =>
    obtain ⟨here, spares⟩ := List.forall_mem_cons.mp spares
    refine ih ?_ spares
    rcases here with rfl | elsewhere
    · exact holds.spares.agrees.holds_set leaf
    · exact holds.set_elsewhere named elsewhere entry.2

/-- A leaf of a source is there when all leaves of the source are set. -/
theorem AgreesAt.holds_setAll (named : ∀ name ∈ names, IsName name)
    (agrees : leaves.AgreesAt names) (holds : own.Holds names leaf) :
    (leaves.setAll own).Holds names leaf := by
  obtain ⟨before, after, rfl⟩ := List.append_of_mem holds.there
  obtain ⟨early, last⟩ := List.forall_mem_append.mp holds.spares
  obtain ⟨_, late⟩ := List.forall_mem_cons.mp last
  rw [SettingLeaves.setAll, List.foldl_append, List.foldl_cons]
  have here := (agrees.setAll (Spares.agrees early)).holds_set leaf
  exact here.setAll named late

/-- A leaf that is placed once at least is found, whatever is placed before and after it. -/
theorem Spares.at?_foldl (isLeaf : leaf.isLeaf = true) (named : ∀ name ∈ names, IsName name)
    (spares : leaves.Spares names leaf) {root : Option SettingValue}
    (clear : ClearAt names leaf root)
    (there : (names.map .name, leaf) ∈ leaves ∨ root.bind (at? names) = some leaf) :
    (leaves.foldl (fun root (path, value) => some (placeAt value path root)) root).bind
      (at? names) = some leaf := by
  induction leaves generalizing root with
  | nil => exact there.resolve_left List.not_mem_nil
  | cons entry rest ih =>
    obtain ⟨here, others⟩ := List.forall_mem_cons.mp spares
    rcases here with rfl | elsewhere
    · have placed := SettingValue.at?_placeAt isLeaf named clear
      refine ih others (fun found again => ?_) (.inr placed)
      exact (Option.some.inj (placed.symm.trans again)).symm
    · have same := SettingValue.at?_placeAt_of_elsewhere entry.2 elsewhere root
      refine ih others (fun found again => clear found (same.symm.trans again)) ?_
      refine there.imp (fun member => (List.mem_cons.mp member).resolve_left ?_) same.trans
      rintro rfl
      exact LeadsElsewhere.irrefl named elsewhere

theorem Holds.at?_table (inside : names ≠ []) (named : ∀ name ∈ names, IsName name)
    (isLeaf : leaf.isLeaf = true) (holds : leaves.Holds names leaf) :
    at? names (.table leaves.table) = some leaf := by
  cases names with
  | nil => exact absurd rfl inside
  | cons name names =>
    have nothing : ClearAt (name :: names) leaf (some (.table [])) := by
      rintro found ⟨⟩
    have found := holds.spares.at?_foldl isLeaf named nothing (.inl holds.there)
    rwa [SettingValue.at?_cons] at found

end SettingLeaves

namespace SettingSource

open SettingValue (LeadsElsewhere at?)

variable {surroundings : Surroundings} {sources : List SettingSource} {source : SettingSource}
  {leaves result : SettingLeaves} {names : List String} {leaf : SettingValue}

/-- What there may be once sources were read over some leaves, each with its leaves in some order. -/
inductive ReadsTo (surroundings : Surroundings) :
    SettingLeaves → List SettingSource → SettingLeaves → Prop where
  | nil (leaves : SettingLeaves) : ReadsTo surroundings leaves [] leaves
  | cons {source : SettingSource} {sources : List SettingSource}
    {leaves own order result : SettingLeaves} (read : source.leaves? surroundings = some own)
    (perm : order.Perm own) (rest : ReadsTo surroundings (leaves.setAll order) sources result) :
    ReadsTo surroundings leaves (source :: sources) result

/-- The sources may be merged to the table: the leaves are put together in some order. -/
def MayMergeTo (surroundings : Surroundings) (sources : List SettingSource)
    (table : List (String × SettingValue)) : Prop :=
  ∃ leaves order, ReadsTo surroundings [] (ordered sources) leaves ∧
    order.Perm leaves ∧ table = SettingLeaves.table order

theorem readsTo_foldlM (folded : sources.foldlM (readOver surroundings) leaves = .ok result) :
    ReadsTo surroundings leaves sources result := by
  induction sources generalizing leaves with
  | nil =>
    cases folded
    exact .nil _
  | cons source rest ih =>
    obtain ⟨next, read, folded⟩ := bind_eq_ok_iff.mp folded
    obtain ⟨own, written, rfl⟩ := readOver_eq_ok_iff.mp read
    exact .cons written (.refl own) (ih folded)

theorem mayMergeTo_merged {merged : List (String × SettingValue)}
    (merges : SettingSource.merged surroundings sources = .ok merged) :
    MayMergeTo surroundings sources merged := by
  obtain ⟨_, leaves, folded, rfl⟩ := merged_eq_ok_iff.mp merges
  exact ⟨leaves, leaves, readsTo_foldlM folded, .refl leaves, rfl⟩

theorem exists_merged (nonempty : sources ≠ [])
    (regular : ∀ source ∈ sources, source.IsRegular surroundings) :
    ∃ merged, SettingSource.merged surroundings sources = .ok merged := by
  have regularInOrder : ∀ source ∈ ordered sources, source.IsRegular surroundings :=
    fun source member => regular source (mem_ordered_iff.mp member)
  obtain ⟨leaves, folded, _⟩ := foldlM_readOver regularInOrder
  exact ⟨_, merged_eq_ok_iff.mpr ⟨nonempty, _, folded, rfl⟩⟩

theorem readsTo_append {first second : List SettingSource}
    (reads : ReadsTo surroundings leaves (first ++ second) result) :
    ∃ middle, ReadsTo surroundings leaves first middle ∧
      ReadsTo surroundings middle second result := by
  induction first generalizing leaves with
  | nil => exact ⟨leaves, .nil leaves, reads⟩
  | cons source rest ih =>
    cases reads with
    | cons read perm later =>
      obtain ⟨middle, early, late⟩ := ih later
      exact ⟨middle, .cons read perm early, late⟩

/-- The source has a leaf at the end of the names. -/
def Touches (surroundings : Surroundings) (source : SettingSource) (names : List String) : Prop :=
  ∃ own leaf, source.leaves? surroundings = some own ∧ (names.map .name, leaf) ∈ own

/-- All leaves of the source are at the end of the names or elsewhere. -/
def AgreesAt (surroundings : Surroundings) (source : SettingSource) (names : List String) : Prop :=
  ∀ own, source.leaves? surroundings = some own → own.AgreesAt names

/-- The source has this leaf at the end of the names, and its others are elsewhere. -/
structure Puts (surroundings : Surroundings) (source : SettingSource) (names : List String)
    (leaf : SettingValue) : Prop where
  inside : names ≠ []
  named : ∀ name ∈ names, IsName name
  isLeaf : leaf.isLeaf = true
  written : ∃ own, source.leaves? surroundings = some own ∧ own.Holds names leaf

theorem IsRegular.sets_of_mem (regular : source.IsRegular surroundings) {own : SettingLeaves}
    (written : source.leaves? surroundings = some own) {entry : KeyPath × SettingValue}
    (member : entry ∈ own) :
    ∃ path, entry.1 = path.map .name ∧ (∀ name ∈ path, IsName name) ∧
      source.Sets surroundings path entry.2 := by
  obtain ⟨table, read, regular⟩ := regular
  cases (leaves?_of_regular read regular).symm.trans written
  obtain ⟨⟨path, last⟩, listed, rfl⟩ := List.mem_map.mp member
  have sets := regular.mem_leavesOfEntries_iff.mp listed
  exact ⟨path, rfl, regular.isName sets.has, table, read, sets⟩

theorem IsRegular.agreesAt (regular : source.IsRegular surroundings)
    (apart : ∀ path last, source.Sets surroundings path last → path ≠ names →
      SettingValue.Apart path names) : source.AgreesAt surroundings names := by
  intro own written entry member
  obtain ⟨path, same, named, sets⟩ := regular.sets_of_mem written member
  rw [same]
  by_cases here : path = names
  · exact .inl (congrArg _ here)
  · exact .inr (.of_apart named (apart path entry.2 sets here))

/-- Where orderly sources set a leaf they all agree. -/
theorem Orderly.agreesAt (orderly : Orderly surroundings sources) {other : SettingSource}
    (member : source ∈ sources) (also : other ∈ sources)
    (sets : source.Sets surroundings names leaf) : other.AgreesAt surroundings names := by
  refine (orderly.regular other also).agreesAt fun path last otherSets different => ⟨?_, ?_⟩
  · exact orderly.not_prefix also member otherSets sets different
  · exact orderly.not_prefix member also sets otherSets different.symm

/-- Orderly sources put the leaves that they set. -/
theorem Orderly.puts (orderly : Orderly surroundings sources) (member : source ∈ sources)
    (sets : source.Sets surroundings names leaf) : source.Puts surroundings names leaf := by
  have agrees := orderly.agreesAt member member sets
  have isRegular := orderly.regular source member
  obtain ⟨table, read, own⟩ := sets
  obtain ⟨_, again, regular⟩ := isRegular
  cases read.symm.trans again
  have written := leaves?_of_regular read regular
  refine ⟨own.inside, regular.isName own.has, own.has.isLeaf, _, written,
    List.mem_map.mpr ⟨_, regular.mem_leavesOfEntries_iff.mpr own, rfl⟩, fun entry inside => ?_⟩
  refine (agrees _ written entry inside).imp_left fun same => Prod.ext same ?_
  obtain ⟨path, samePath, _, _, again, other⟩ := IsRegular.sets_of_mem ⟨table, read, regular⟩
    written inside
  cases read.symm.trans again
  have injective := List.map_injective_iff.mpr (fun _ _ same => KeyStep.name.inj same)
  cases injective (samePath.symm.trans same)
  exact other.unique own

theorem agreesAt_readsTo (agree : ∀ source ∈ sources, source.AgreesAt surroundings names)
    (agrees : leaves.AgreesAt names) (reads : ReadsTo surroundings leaves sources result) :
    result.AgreesAt names := by
  induction reads with
  | nil leaves => exact agrees
  | cons read perm rest ih =>
    obtain ⟨here, agree⟩ := List.forall_mem_cons.mp agree
    have ordered := fun entry member => here _ read entry (perm.mem_iff.mp member)
    exact ih agree (agrees.setAll ordered)

/-- A leaf stays when sources are read that have none in its place. -/
theorem holds_readsTo (named : ∀ name ∈ names, IsName name)
    (agree : ∀ source ∈ sources, source.AgreesAt surroundings names)
    (untouched : ∀ source ∈ sources, ¬ source.Touches surroundings names)
    (holds : leaves.Holds names leaf) (reads : ReadsTo surroundings leaves sources result) :
    result.Holds names leaf := by
  induction reads with
  | nil leaves => exact holds
  | cons read perm rest ih =>
    obtain ⟨here, agree⟩ := List.forall_mem_cons.mp agree
    obtain ⟨notHere, untouched⟩ := List.forall_mem_cons.mp untouched
    refine ih agree untouched (holds.setAll named fun entry member => .inr ?_)
    have inside := perm.mem_iff.mp member
    refine (here _ read entry inside).resolve_left fun same => notHere ⟨_, entry.2, read, ?_⟩
    rwa [← same]

/-- The merged settings have the leaf of a source if all sources agree and none that counts more has
a leaf in its place. -/
theorem at?_of_mayMergeTo {place : Nat} (listed : sources[place]? = some source)
    (puts : source.Puts surroundings names leaf)
    (agree : ∀ other ∈ sources, other.AgreesAt surroundings names)
    (untouched : ∀ position later, sources[position]? = some later →
      Below (source, place) (later, position) → ¬ later.Touches surroundings names)
    {merged : List (String × SettingValue)} (merges : MayMergeTo surroundings sources merged) :
    at? names (.table merged) = some leaf := by
  obtain ⟨leaves, order, reads, perm, rfl⟩ := merges
  obtain ⟨before, after, split, above⟩ := split_of_place listed
  obtain ⟨own, written, holds⟩ := puts.written
  have agreeInOrder : ∀ other ∈ before ++ source :: after, other.AgreesAt surroundings names :=
    fun other member => agree other (mem_ordered_iff.mp (split ▸ member))
  obtain ⟨agreeBefore, agreeAfter⟩ := List.forall_mem_append.mp agreeInOrder
  rw [split] at reads
  obtain ⟨middle, early, late⟩ := readsTo_append reads
  have agrees := agreesAt_readsTo agreeBefore (fun _ member => absurd member List.not_mem_nil) early
  cases late with
  | cons read shuffled rest =>
    cases written.symm.trans read
    have kept := agrees.holds_setAll puts.named (holds.perm shuffled)
    have untouchedAfter : ∀ later ∈ after, ¬ later.Touches surroundings names := by
      intro later behind
      obtain ⟨position, listed, below⟩ := above later behind
      exact untouched position later listed below
    have last := holds_readsTo puts.named (List.forall_mem_cons.mp agreeAfter).2 untouchedAfter
      kept rest
    exact (last.perm perm).at?_table puts.inside puts.named puts.isLeaf

end SettingSource

end StackSwap
