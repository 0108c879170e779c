import StackSwap.Settings.Decode
import StackSwap.Settings.Merge

namespace StackSwap

/-- What a deployer is given to find its settings: settings outright, files, of which a later one
counts more, other sources, and the beginning and the separator of variable names. -/
structure SettingsChoice where
  outright : Option Settings := none
  files : List String := []
  others : List SettingSource := []
  naming : Option (String × String) := none
deriving Inhabited

namespace SettingsChoice

/-- The priority of the first file is a hundred, and each further one has ten more, in numbers of 32
bits that wrap around. -/
def filePriority (index : Nat) : Int := (100 + index * 10 : Int).bmod 4294967296

/-- The priority of other sources that name none. -/
def otherPriority : Int := 100

/-- The priority of environment variables. -/
def variablesPriority : Int := 300

def sources (choice : SettingsChoice) : List SettingSource :=
  choice.files.zipIdx.map (fun (path, index) => ⟨.file path, filePriority index⟩) ++
    choice.others ++
    choice.naming.toList.map (fun (beginning, separator) =>
      ⟨.environment beginning separator, variablesPriority⟩)

def load (surroundings : Surroundings) (sources : List SettingSource) : Outcome Settings :=
  match SettingSource.merged surroundings sources with
  | .error fault => .error (.settingsLoad fault)
  | .ok values =>
    match Settings.ofSetting? (.table values) with
    | some settings => .ok settings
    | none => .error .settingsDeserialize

/-- The settings before they are validated. -/
def find (choice : SettingsChoice) (surroundings : Surroundings) : Outcome Settings :=
  match choice.outright with
  | some settings => .ok settings
  | none => if choice.sources.isEmpty then .ok {} else load surroundings choice.sources

/-- The settings, which are usable. -/
def settings (choice : SettingsChoice) (surroundings : Surroundings) : Outcome Settings := do
  let settings ← choice.find surroundings
  settings.validate
  return settings

end SettingsChoice

end StackSwap
