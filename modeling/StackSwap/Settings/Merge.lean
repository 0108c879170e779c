import StackSwap.Settings.Source

/-! Merging sources leaf by leaf. Here leaves are put in their places in the order in which they were
last set. Any other order is as good, which matters if the path to one leaf leads on to another. -/

namespace StackSwap

/-- The leaves of the sources read so far, by their paths; each path occurs once. -/
abbrev SettingLeaves := List (KeyPath × SettingValue)

namespace SettingLeaves

def set (leaves : SettingLeaves) (path : KeyPath) (value : SettingValue) : SettingLeaves :=
  leaves.filter (fun leaf => leaf.1 ≠ path) ++ [(path, value)]

/-- Sets all leaves of a table, unless a key is no path. -/
def setAll? (leaves : SettingLeaves) (values : List (String × SettingValue)) :
    Option SettingLeaves :=
  (SettingValue.leavesOfEntries values).foldlM
    (fun leaves (keys, value) => (KeyPath.ofKeys? keys).map (fun path => leaves.set path value))
    leaves

def table (leaves : SettingLeaves) : List (String × SettingValue) :=
  SettingValue.entries (leaves.foldl
    (fun root (path, value) => some (SettingValue.placeAt value path root)) (some (.table [])))

end SettingLeaves

namespace SettingSource

/-- Puts a source behind those whose priority is not higher. -/
def insertOrdered (source : SettingSource) : List SettingSource → List SettingSource
  | [] => [source]
  | first :: rest =>
    if source.priority < first.priority then source :: first :: rest
    else first :: insertOrdered source rest

/-- The sources in ascending priority; of two with the same one the later one counts more. -/
def ordered (sources : List SettingSource) : List SettingSource :=
  sources.foldl (fun sorted source => source.insertOrdered sorted) []

/-- Reads a source over the leaves of those below it. -/
def readOver (surroundings : Surroundings) (leaves : SettingLeaves) (source : SettingSource) :
    Except LoadFault SettingLeaves := do
  let name := source.origin.name
  let values ← match source.origin.read surroundings with
    | .ok values => .ok values
    | .error fault => .error (LoadFault.source name (Failure.settingsLoad fault).message)
  match leaves.setAll? values with
  | some leaves => return leaves
  | none => throw (.merge name)

def merged (surroundings : Surroundings) (sources : List SettingSource) :
    Except LoadFault (List (String × SettingValue)) := do
  if sources.isEmpty then throw .noSources
  let leaves ← (ordered sources).foldlM (readOver surroundings) []
  return leaves.table

end SettingSource

end StackSwap
