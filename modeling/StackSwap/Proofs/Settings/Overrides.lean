import Mathlib
import StackSwap.Proofs.Settings.Shuffled
import StackSwap.Settings.Choice

/-! The variables have the priority of the twenty-first file, so they count more than the first
twenty-one files and less than the later ones. -/

namespace StackSwap

namespace SettingsChoice

open SettingSource (Below Puts AgreesAt Touches MayMergeTo Orderly)

variable {choice : SettingsChoice} {surroundings : Surroundings} {beginning separator : String}

def fileSource (path : String) (place : Nat) : SettingSource := ⟨.file path, filePriority place⟩

def variablesSource (beginning separator : String) : SettingSource :=
  ⟨.environment beginning separator, variablesPriority⟩

/-- The number of files that count less than the variables. -/
def filesBelowVariables : Nat := 21

/-- The number of files whose priorities fit into 32 bits. -/
def filesThatFit : Nat := 214748355

theorem filePriority_eq {place : Nat} (fits : place < filesThatFit) :
    filePriority place = 100 + place * 10 := by
  unfold filesThatFit at fits
  exact Int.bmod_eq_of_le (by omega) (by omega)

theorem filePriority_lt_iff {place other : Nat} (fits : place < filesThatFit)
    (otherFits : other < filesThatFit) :
    filePriority place < filePriority other ↔ place < other := by
  rw [filePriority_eq fits, filePriority_eq otherFits]
  omega

theorem otherPriority_lt_filePriority_iff {place : Nat} (fits : place < filesThatFit) :
    otherPriority < filePriority place ↔ 0 < place := by
  rw [filePriority_eq fits, otherPriority]
  omega

theorem otherPriority_lt_variablesPriority : otherPriority < variablesPriority := by decide

theorem filePriority_le_variablesPriority_iff {place : Nat} (fits : place < filesThatFit) :
    filePriority place ≤ variablesPriority ↔ place < filesBelowVariables := by
  rw [filePriority_eq fits, variablesPriority, filesBelowVariables]
  omega

theorem sources_eq (naming : choice.naming = some (beginning, separator)) :
    choice.sources = choice.files.zipIdx.map (fun (path, index) => fileSource path index) ++
      choice.others ++ [variablesSource beginning separator] := by
  rw [sources, naming]
  rfl

theorem sources_ne_nil (naming : choice.naming = some (beginning, separator)) :
    choice.sources ≠ [] := by
  rw [sources_eq naming]
  exact List.append_ne_nil_of_right_ne_nil _ (List.cons_ne_nil _ _)

theorem find_of_merged (outright : choice.outright = none) (nonempty : choice.sources ≠ [])
    {merged : List (String × SettingValue)}
    (merges : SettingSource.merged surroundings choice.sources = .ok merged) :
    choice.find surroundings =
      (Settings.ofSetting? (.table merged)).elim (.error .settingsDeserialize) .ok := by
  rw [find, outright]
  simp only [List.isEmpty_eq_false_iff.mpr nonempty, load, merges]
  cases Settings.ofSetting? (.table merged) <;> rfl

theorem getElem?_files {place : Nat} :
    (choice.files.zipIdx.map (fun (path, index) => fileSource path index))[place]? =
      choice.files[place]?.map (fun path => fileSource path place) := by
  rw [List.getElem?_map, List.getElem?_zipIdx, Option.map_map, Nat.zero_add]
  rfl

/-- The sources by their places: files, others, and the variables at the end. -/
theorem getElem?_sources_iff (naming : choice.naming = some (beginning, separator)) {place : Nat}
    {source : SettingSource} :
    choice.sources[place]? = some source ↔
      (∃ path, choice.files[place]? = some path ∧ source = fileSource path place) ∨
      (choice.files.length ≤ place ∧ choice.others[place - choice.files.length]? = some source) ∨
      (place = choice.files.length + choice.others.length ∧
        source = variablesSource beginning separator) := by
  have fewer : (choice.files.zipIdx.map (fun (path, index) => fileSource path index)).length =
      choice.files.length := by simp
  rw [sources_eq naming, List.append_assoc, List.getElem?_append, List.getElem?_append, fewer,
    getElem?_files]
  -- the three parts follow each other, so that each place belongs to one of them
  grind

section Counts

variable {place position : Nat} {file : String} {later : SettingSource}

/-- Only files after the twenty-first count more than the variables. -/
theorem counts_more_than_variables (naming : choice.naming = some (beginning, separator))
    (standard : ∀ source ∈ choice.others, source.priority = otherPriority)
    (few : choice.files.length ≤ filesThatFit)
    (there : choice.sources[position]? = some later)
    (above : Below (variablesSource beginning separator,
      choice.files.length + choice.others.length) (later, position)) :
    ∃ next, choice.files[position]? = some next ∧ later = fileSource next position ∧
      filesBelowVariables ≤ position := by
  rcases (getElem?_sources_iff naming).mp there with
    ⟨next, listed, rfl⟩ | ⟨_, member⟩ | ⟨rfl, rfl⟩
  · have before : position < choice.files.length := (List.getElem?_eq_some_iff.mp listed).1
    refine ⟨next, listed, rfl, Nat.le_of_not_lt fun below => ?_⟩
    have lower := (filePriority_le_variablesPriority_iff (before.trans_le few)).mpr below
    simp only [Below, variablesSource, fileSource] at above
    omega
  · have priority := standard later (List.mem_of_getElem? member)
    have lower := otherPriority_lt_variablesPriority
    simp only [Below, variablesSource] at above
    omega
  · simp [Below] at above

/-- Only later files count more than a file, other sources if it is the first one, and the variables
if it is one of the first twenty-one. -/
theorem counts_more_than_file (naming : choice.naming = some (beginning, separator))
    (standard : ∀ source ∈ choice.others, source.priority = otherPriority)
    (few : choice.files.length ≤ filesThatFit) (fits : place < filesThatFit)
    (there : choice.sources[position]? = some later)
    (above : Below (fileSource file place, place) (later, position)) :
    (∃ next, choice.files[position]? = some next ∧ later = fileSource next position ∧
      place < position) ∨
    (later ∈ choice.others ∧ place = 0) ∨
    (later = variablesSource beginning separator ∧ place < filesBelowVariables) := by
  rcases (getElem?_sources_iff naming).mp there with
    ⟨next, listed, rfl⟩ | ⟨_, member⟩ | ⟨rfl, rfl⟩
  · have before : position < choice.files.length := (List.getElem?_eq_some_iff.mp listed).1
    refine .inl ⟨next, listed, rfl, Nat.lt_of_not_le fun earlier => ?_⟩
    have higher := mt (filePriority_lt_iff fits (before.trans_le few)).mp (Nat.not_lt.mpr earlier)
    simp only [Below, fileSource] at above
    omega
  · have member := List.mem_of_getElem? member
    refine .inr (.inl ⟨member, Nat.eq_zero_of_not_pos fun behind => ?_⟩)
    have priority := standard later member
    have higher := (otherPriority_lt_filePriority_iff fits).mpr behind
    simp only [Below, fileSource] at above
    omega
  · refine .inr (.inr ⟨rfl, (filePriority_le_variablesPriority_iff fits).mp ?_⟩)
    simp only [Below, fileSource, variablesSource] at above
    omega

end Counts

/-- The settings are decoded from one of the tables that the sources may be merged to, and regular
sources can be merged. In all these tables, where the sources agree, a leaf is that of the variables
unless a file after the twenty-first has one in its place, and of the files the last one that has one
counts, unless the variables do; the other sources count more than the first file only. -/
theorem find_overrides (outright : choice.outright = none)
    (naming : choice.naming = some (beginning, separator))
    (standard : ∀ source ∈ choice.others, source.priority = otherPriority)
    (few : choice.files.length ≤ filesThatFit) :
    ((∀ source ∈ choice.sources, source.IsRegular surroundings) →
      ∃ merged, SettingSource.merged surroundings choice.sources = .ok merged) ∧
    (∀ merged, SettingSource.merged surroundings choice.sources = .ok merged →
      MayMergeTo surroundings choice.sources merged ∧
        choice.find surroundings =
          (Settings.ofSetting? (.table merged)).elim (.error .settingsDeserialize) .ok) ∧
    ∀ merged names leaf, MayMergeTo surroundings choice.sources merged →
      (∀ source ∈ choice.sources, source.AgreesAt surroundings names) →
      ((variablesSource beginning separator).Puts surroundings names leaf →
        (∀ place file, 21 ≤ place → choice.files[place]? = some file →
          ¬ (fileSource file place).Touches surroundings names) →
        SettingValue.at? names (.table merged) = some leaf) ∧
      ∀ place file, choice.files[place]? = some file →
        (fileSource file place).Puts surroundings names leaf →
        (∀ later next, place < later → choice.files[later]? = some next →
          ¬ (fileSource next later).Touches surroundings names) →
        (place < 21 → ¬ (variablesSource beginning separator).Touches surroundings names) →
        (place = 0 → ∀ source ∈ choice.others, ¬ source.Touches surroundings names) →
        SettingValue.at? names (.table merged) = some leaf := by
  refine ⟨SettingSource.exists_merged (sources_ne_nil naming), fun merged merges =>
    ⟨SettingSource.mayMergeTo_merged merges,
      find_of_merged outright (sources_ne_nil naming) merges⟩, ?_⟩
  intro merged names leaf merges agree
  constructor
  · intro puts untouched
    refine SettingSource.at?_of_mayMergeTo ((getElem?_sources_iff naming).mpr (.inr (.inr ⟨rfl, rfl⟩)))
      puts agree (fun position later there above => ?_) merges
    obtain ⟨next, listed, rfl, behind⟩ :=
      counts_more_than_variables naming standard few there above
    exact untouched position next behind listed
  · intro place file listed puts last environment others
    have fits := (List.getElem?_eq_some_iff.mp listed).1.trans_le few
    refine SettingSource.at?_of_mayMergeTo
      ((getElem?_sources_iff naming).mpr (.inl ⟨file, listed, rfl⟩)) puts agree
      (fun position later there above => ?_) merges
    rcases counts_more_than_file naming standard few fits there above with
      ⟨next, listed, rfl, behind⟩ | ⟨member, first⟩ | ⟨rfl, below⟩
    · exact last position next behind listed
    · exact others first later member
    · exact environment below

section Late

/-- Empty files, a last one that names the target, and variables. -/
def lateFile (before : Nat) : SettingsChoice where
  files := List.replicate before "empty.toml" ++ ["late.toml"]
  naming := some ("HOTSWAP", "__")

/-- A variable names another region than the last file. -/
def lateSurroundings : Surroundings where
  files := .ofList [("empty.toml", some ""),
    ("late.toml", some "[environment]\naccount = '1'\nregion = 'file'\n")]
  environment := .ofList [("HOTSWAP_ENVIRONMENT__REGION", "variable")]

/-- The table of the last file. -/
def lateTable : List (String × SettingValue) :=
  [("environment", .table [("account", .text "1"), ("region", .text "file")])]

/-- The table of the variables. -/
def variablesTable : List (String × SettingValue) :=
  [("environment", .table [("region", .text "variable")])]

theorem read_empty (place : Nat) :
    (fileSource "empty.toml" place).origin.read lateSurroundings = .ok [] := by
  have format : (SettingOrigin.extension? "empty.toml").bind SettingFormat.ofExtension? =
      some .toml := by decide +kernel
  have text : lateSurroundings.files.lookup "empty.toml" = .found "" := by decide +kernel
  have values : SettingFormat.toml.read? "" = some [] := by cbv
  simp only [fileSource, SettingOrigin.read, SettingOrigin.readFile, format, text, values]
  rfl

theorem read_late (place : Nat) :
    (fileSource "late.toml" place).origin.read lateSurroundings = .ok lateTable := by
  have format : (SettingOrigin.extension? "late.toml").bind SettingFormat.ofExtension? =
      some .toml := by decide +kernel
  have text : lateSurroundings.files.lookup "late.toml" =
      .found "[environment]\naccount = '1'\nregion = 'file'\n" := by decide +kernel
  have values : SettingFormat.toml.read?
      "[environment]\naccount = '1'\nregion = 'file'\n" = some lateTable := by cbv
  have gathered : SettingValue.gather lateTable = lateTable := by cbv
  simp only [fileSource, SettingOrigin.read, SettingOrigin.readFile, format, text, values, gathered]

theorem read_variables :
    (variablesSource "HOTSWAP" "__").origin.read lateSurroundings = .ok variablesTable := by
  have key : SettingOrigin.keyOfVariable? "HOTSWAP" "__" "HOTSWAP_ENVIRONMENT__REGION" =
      some "environment.region" := by decide +kernel
  have value : SettingOrigin.valueOfVariable "variable" = .text "variable" := by cbv
  have gathered : SettingValue.gather [("environment.region", .text "variable")] =
      variablesTable := by cbv
  have entries : lateSurroundings.environment.entries =
      [("HOTSWAP_ENVIRONMENT__REGION", "variable")] := rfl
  simp only [variablesSource, SettingOrigin.read, SettingOrigin.readVariables, entries,
    List.filterMap_cons, List.filterMap_nil, key, value, Option.map_some]
  exact congrArg Except.ok gathered

theorem orderly_late (before : Nat) : Orderly lateSurroundings (lateFile before).sources := by
  have read : ∀ source ∈ (lateFile before).sources, ∃ table ∈ [[], lateTable, variablesTable],
      source.origin.read lateSurroundings = .ok table := by
    intro source member
    obtain ⟨place, there⟩ := List.mem_iff_getElem?.mp member
    rcases (getElem?_sources_iff rfl).mp there with ⟨path, listed, rfl⟩ | ⟨_, other⟩ | ⟨_, rfl⟩
    · rcases List.mem_append.mp (List.mem_of_getElem? listed) with empty | late
      · cases List.eq_of_mem_replicate empty
        exact ⟨_, by simp, read_empty place⟩
      · cases List.mem_singleton.mp late
        exact ⟨_, by simp, read_late place⟩
    · cases other
    · exact ⟨_, by simp, read_variables⟩
  exact .of_tables read (by decide +kernel) (by decide +kernel)

theorem variables_set :
    (variablesSource "HOTSWAP" "__").Sets lateSurroundings ["environment", "region"]
      (.text "variable") :=
  ⟨_, read_variables, List.cons_ne_nil _ _, rfl, rfl⟩

theorem foldlM_readOver_empty (places : List Nat) (leaves : SettingLeaves) :
    (places.map (fileSource "empty.toml")).foldlM (SettingSource.readOver lateSurroundings) leaves =
      .ok leaves := by
  induction places with
  | nil => rfl
  | cons place rest ih =>
    rw [List.map_cons, List.foldlM_cons, SettingSource.readOver, read_empty]
    exact ih

/-- With three files the variable counts more than the last one. -/
theorem find_overrides_early :
    (lateFile 2).outright = none ∧ (lateFile 2).naming = some ("HOTSWAP", "__") ∧
      (∀ source ∈ (lateFile 2).others, source.priority = otherPriority) ∧
      (lateFile 2).files.length ≤ filesThatFit ∧
      ∃ merged, SettingSource.merged lateSurroundings (lateFile 2).sources = .ok merged ∧
        (lateFile 2).find lateSurroundings =
          (Settings.ofSetting? (.table merged)).elim (.error .settingsDeserialize) .ok ∧
        SettingValue.at? ["environment", "region"] (.table merged) = some (.text "variable") := by
  have naming : (lateFile 2).naming = some ("HOTSWAP", "__") := rfl
  have standard : ∀ source ∈ (lateFile 2).others, source.priority = otherPriority :=
    fun _ member => absurd member List.not_mem_nil
  have few : (lateFile 2).files.length ≤ filesThatFit := by decide
  have orderly := orderly_late 2
  have isVariables : variablesSource "HOTSWAP" "__" ∈ (lateFile 2).sources := by
    simp [sources_eq naming]
  have noLate (place : Nat) (file : String) (above : 21 ≤ place) :
      (lateFile 2).files[place]? ≠ some file := by
    intro listed
    have before : place < 3 := (List.getElem?_eq_some_iff.mp listed).1
    omega
  obtain ⟨existing, decoded, overrides⟩ := find_overrides rfl naming standard few
  obtain ⟨merged, merges⟩ := existing orderly.regular
  obtain ⟨mayMerge, found⟩ := decoded merged merges
  have agree : ∀ source ∈ (lateFile 2).sources,
      source.AgreesAt lateSurroundings ["environment", "region"] :=
    fun source member => orderly.agreesAt isVariables member variables_set
  refine ⟨rfl, naming, standard, few, merged, merges, found, ?_⟩
  exact (overrides merged _ _ mayMerge agree).1 (orderly.puts isVariables variables_set)
    (fun place file above listed => absurd listed (noLate place file above))

/-- With twenty-two files the last one counts more than the variable. -/
theorem find_overrides_late :
    (∀ source ∈ (lateFile 21).others, source.priority = otherPriority) ∧
      Orderly lateSurroundings (lateFile 21).sources ∧
      (variablesSource "HOTSWAP" "__").Sets lateSurroundings ["environment", "region"]
        (.text "variable") ∧
      ∃ settings, (lateFile 21).find lateSurroundings = .ok settings ∧
        settings.target.region = "file" := by
  have merges : SettingSource.merged lateSurroundings (lateFile 21).sources = .ok lateTable := by
    have ordered : SettingSource.ordered (lateFile 21).sources =
        (List.range 21).map (fileSource "empty.toml") ++
          [variablesSource "HOTSWAP" "__", fileSource "late.toml" 21] := by rfl
    have variablesLeaves : SettingSource.readOver lateSurroundings []
        (variablesSource "HOTSWAP" "__") =
        .ok [([.name "environment", .name "region"], .text "variable")] := by
      rw [SettingSource.readOver, read_variables]
      cbv
    have lateLeaves : SettingSource.readOver lateSurroundings
        [([.name "environment", .name "region"], .text "variable")] (fileSource "late.toml" 21) =
        .ok [([.name "environment", .name "account"], .text "1"),
          ([.name "environment", .name "region"], .text "file")] := by
      rw [SettingSource.readOver, read_late]
      cbv
    have table : SettingLeaves.table [([.name "environment", .name "account"], .text "1"),
        ([.name "environment", .name "region"], .text "file")] = lateTable := by cbv
    rw [SettingSource.merged, ordered, List.foldlM_append, foldlM_readOver_empty, ok_bind,
      List.foldlM_cons, variablesLeaves, ok_bind, List.foldlM_cons, lateLeaves]
    exact congrArg Except.ok table
  refine ⟨fun _ member => absurd member List.not_mem_nil, orderly_late 21, variables_set, ?_⟩
  have decoded : Settings.ofSetting? (.table lateTable) =
      some { target := { account := "1", region := "file" } } := by cbv
  refine ⟨{ target := { account := "1", region := "file" } }, ?_, rfl⟩
  rw [find_of_merged rfl (sources_ne_nil rfl) merges, decoded]
  rfl

end Late

end SettingsChoice

end StackSwap
